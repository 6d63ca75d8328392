/-
# Which characters filling yields

Filling a template writes down what stands in it, the arguments, and what pads an argument to its width: a
character that the placeholder names, or a space.  So whatever holds of the characters of the template and
of the arguments, and of the space, holds of the characters of the text (`forall_mem_render`).
-/
import GroundStation.Proofs.Template.Soundness

namespace GroundStation

namespace Template

variable {P : Char → Prop}

namespace Format

theorem forall_mem_takeAlign (space : P ' ') {t : Text} (all : ∀ c ∈ t, P c) :
    P (takeAlign t).1 ∧ ∀ c ∈ (takeAlign t).2.2.2, P c := by
  unfold takeAlign
  split
  · next a b t =>
    obtain ⟨ha, hbt⟩ := List.forall_mem_cons.mp all
    split
    · exact ⟨ha, (List.forall_mem_cons.mp hbt).2⟩
    · split
      · exact ⟨space, hbt⟩
      · exact ⟨space, all⟩
  · split
    · exact ⟨space, List.forall_mem_nil _⟩
    · exact ⟨space, all⟩
  · exact ⟨space, List.forall_mem_nil _⟩

theorem forall_mem_takeOne (set : Text) {t : Text} (all : ∀ c ∈ t, P c) : ∀ c ∈ (takeOne set t).2, P c := by
  unfold takeOne
  split
  · exact all
  · split
    · exact (List.forall_mem_cons.mp all).2
    · exact all

/-- A zero that was taken was there. -/
theorem zero_of_takeOne {t : Text} (all : ∀ c ∈ t, P c) (taken : (takeOne "0" t).1 = true) : P '0' := by
  unfold takeOne at taken
  split at taken
  · cases taken
  · next c t =>
    split at taken
    · next hc =>
      have heq : c = '0' := List.mem_singleton.mp (List.contains_iff_mem.mp hc)
      exact heq ▸ (List.forall_mem_cons.mp all).1
    · cases taken

/-- What pads is a space, or is named by the specification. -/
theorem fill_of_read (space : P ' ') {t : Text} (all : ∀ c ∈ t, P c) {f : Format} (h : read t = .ok f) :
    P f.fill := by
  obtain ⟨fill, rest⟩ := forall_mem_takeAlign space all
  have behind := forall_mem_takeOne "#" (forall_mem_takeOne " -+" rest)
  simp only [read, bind, Except.bind, pure, Except.pure] at h
  split at h
  · cases h
  · split at h
    · cases h
    · split at h
      · cases h
      · split at h <;> cases h
        dsimp only
        split
        · exact fill
        · split
          · next zero => exact zero_of_takeOne behind zero
          · exact fill

theorem forall_mem_apply {f : Format} (fill : P f.fill) {value t : Text} (all : ∀ c ∈ value, P c)
    (h : f.apply value = .ok t) : ∀ c ∈ t, P c := by
  have cut : ∀ c ∈ f.cut value, P c := by
    unfold Format.cut
    split
    · exact fun c hc => all c (List.mem_of_mem_take hc)
    · exact all
  cases hsuited : f.unsuited? with
  | some fault =>
    rw [apply, hsuited] at h
    cases h
  | none =>
    rw [apply_eq hsuited, pad] at h
    have pad (n : Nat) : ∀ c ∈ List.replicate n f.fill, P c := fun c hc => List.eq_of_mem_replicate hc ▸ fill
    split at h
    · cases h
      exact cut
    · split at h <;> cases h
      · exact List.forall_mem_append.mpr ⟨cut, pad _⟩
      · exact List.forall_mem_append.mpr ⟨pad _, cut⟩
      · exact List.forall_mem_append.mpr ⟨List.forall_mem_append.mpr ⟨pad _, cut⟩, pad _⟩

end Format

/-- What stands in the place of a placeholder. -/
theorem forall_mem_fill (space : P ' ') {args : List Text} (given : ∀ arg ∈ args, ∀ c ∈ arg, P c)
    {body t : Text} (all : ∀ c ∈ body, P c) (h : fill args body = .ok t) : ∀ c ∈ t, P c := by
  have spec : ∀ c ∈ (parts body).2, P c := by
    unfold parts
    cases hcut : Split.cutOnce? ':' body with
    | none => exact List.forall_mem_nil _
    | some halves =>
      obtain ⟨heq, -⟩ := Split.cutOnce?_eq_some (a := halves.1) (b := halves.2) hcut
      intro c hc
      refine all c ?_
      rw [heq]
      exact List.mem_append_right _ (List.mem_cons_of_mem _ hc)
  rw [fill_eq] at h
  split at h
  · cases h
  · split at h
    · cases h
    · next f hread =>
      split at h
      · cases h
      · next value hvalue =>
        obtain ⟨i, -, hi⟩ := getElem?_of_argument? hvalue
        exact Format.forall_mem_apply (Format.fill_of_read space spec hread)
          (given value (List.mem_of_getElem? hi)) h

theorem forall_mem_prepend {front out : Text} {rest : Except FormatFault Text} (all : ∀ c ∈ front, P c)
    (later : ∀ t, rest = .ok t → ∀ c ∈ t, P c) (h : prepend front rest = .ok out) : ∀ c ∈ out, P c := by
  cases rest with
  | error fault => cases h
  | ok t =>
    cases h
    exact List.forall_mem_append.mpr ⟨all, later t rfl⟩

theorem forall_mem_fillFrom (space : P ' ') {args : List Text} (given : ∀ arg ∈ args, ∀ c ∈ arg, P c) :
    ∀ {t : Text} {reading : Option Text} {closing : Bool} {out : Text}, (∀ c ∈ reading.getD [], P c) →
      (∀ c ∈ t, P c) → fillFrom args reading closing t = .ok out → ∀ c ∈ out, P c
  | [], reading, closing, out, _, _, h => by
      unfold fillFrom at h
      split at h
      · cases h
      · split at h <;> cases h
        exact List.forall_mem_nil _
  | c :: t, reading, closing, out, held, all, h => by
      obtain ⟨hc, ht⟩ := List.forall_mem_cons.mp all
      have none : ∀ c ∈ (none : Option Text).getD [], P c := List.forall_mem_nil _
      unfold fillFrom at h
      split at h
      · -- an opening brace
        next hopen =>
        split at h
        · exact forall_mem_fillFrom space given (List.forall_mem_nil _) ht h
        · exact forall_mem_prepend (List.forall_mem_singleton.mpr (hopen ▸ hc))
            (fun _ => forall_mem_fillFrom space given none ht) h
        · cases h
      · split at h
        · -- a closing brace
          next hclose =>
          split at h
          · refine forall_mem_prepend (List.forall_mem_singleton.mpr (hclose ▸ hc))
              (fun _ => forall_mem_fillFrom space given ?_ ht) h
            cases reading with
            | none => exact none
            | some body => exact List.forall_mem_cons.mpr ⟨hclose ▸ hc, held⟩
          · split at h
            · exact forall_mem_fillFrom space given none ht h
            · next body =>
              split at h
              · cases h
              · next value hfill =>
                have placed := forall_mem_fill space given (fun c hc => held c (List.mem_reverse.mp hc)) hfill
                exact forall_mem_prepend placed (fun _ => forall_mem_fillFrom space given none ht) h
        · split at h
          · cases h
          · split at h
            · exact forall_mem_prepend (List.forall_mem_singleton.mpr hc)
                (fun _ => forall_mem_fillFrom space given none ht) h
            · next body =>
              have longer : ∀ x ∈ (some (c :: body)).getD [], P x := List.forall_mem_cons.mpr ⟨hc, held⟩
              exact forall_mem_fillFrom space given longer ht h

/-- The characters of a filled template. -/
theorem forall_mem_render (space : P ' ') {id template : Text} {args : List Text}
    (all : ∀ c ∈ template, P c) (given : ∀ arg ∈ args, ∀ c ∈ arg, P c) {t : Text}
    (h : render id template args = .ok t) : ∀ c ∈ t, P c := by
  unfold render at h
  split at h
  · next text hfill =>
    cases h
    exact forall_mem_fillFrom space given (List.forall_mem_nil _) all hfill
  · cases h

end Template

end GroundStation
