/-
# Templates as segments

A template is a sequence of segments, each a character that stands for itself or a placeholder; written
out, a brace that stands for itself is doubled.  Two scanners read templates: `positions`, when a
parameter is compiled, and `fillFrom`, whenever a command is sent.  Both are told here by the segments:

* a template that `positions` takes is the writing of segments, and the positions are those that the
  placeholders name (`positions_eq_ok`); conversely it takes every such writing (`positionsFrom_write`);
* to fill the writing of segments is to fill the segments one by one (`fillFrom_write`).

The two agree on where segments begin and end.  They do not agree on the placeholders: the second scanner
takes no opening brace in one, which is nothing to the first.
-/
import GroundStation.Template.Placeholder
import GroundStation.Template.Render

namespace GroundStation

namespace Template

/-- A piece of a template. -/
inductive Segment where
  /-- A character that stands for itself. -/
  | literal (c : Char)
  /-- A placeholder, by the text between its braces. -/
  | placeholder (body : Text)
  deriving DecidableEq

namespace Segment

/-- A segment as it stands in a template. -/
def write : Segment → Text
  | literal c => if c = '{' ∨ c = '}' then [c, c] else [c]
  | placeholder body => '{' :: body ++ ['}']

/-- A placeholder ends at the first closing brace, and does not begin as a doubled brace does. -/
def WellFormed : Segment → Prop
  | literal _ => True
  | placeholder body => '}' ∉ body ∧ body.head? ≠ some '{'

instance : DecidablePred WellFormed
  | literal _ => .isTrue trivial
  | placeholder body => inferInstanceAs (Decidable ('}' ∉ body ∧ body.head? ≠ some '{'))

/-- The text of a placeholder. -/
def body? : Segment → Option Text
  | literal _ => none
  | placeholder body => some body

end Segment

/-- Segments as a template. -/
def writeAll (segments : List Segment) : Text := segments.flatMap Segment.write

@[simp] theorem writeAll_cons (s : Segment) (segments : List Segment) :
    writeAll (s :: segments) = s.write ++ writeAll segments := rfl

/-! ## The scan for positions -/

/-- Within a placeholder the scan reads to the closing brace. -/
theorem positionsFrom_some {whole : Text} {indices : List Nat} :
    ∀ {t key : Text}, positionsFrom whole (some key) t = .ok indices →
      ∃ more rest index later, t = more ++ '}' :: rest ∧ '}' ∉ more ∧
        position? (key.reverse ++ more) = some index ∧
        positionsFrom whole none rest = .ok later ∧ indices = index :: later
  | [], _, h => nomatch h
  | c :: t, key, h => by
      rw [positionsFrom] at h
      by_cases hc : c = '}'
      · subst hc
        rw [if_pos rfl] at h
        split at h
        · cases h
        · next index hindex =>
          split at h
          · next later hlater =>
            cases h
            exact ⟨[], t, index, later, rfl, List.not_mem_nil, by rw [List.append_nil]; exact hindex,
              hlater, rfl⟩
          · cases h
      · rw [if_neg hc] at h
        obtain ⟨more, rest, index, later, rfl, hmore, hindex, hrest, rfl⟩ := positionsFrom_some h
        refine ⟨c :: more, rest, index, later, rfl, ?_, ?_, hrest, rfl⟩
        · intro hmem
          rcases List.mem_cons.mp hmem with heq | hin
          · exact hc heq.symm
          · exact hmore hin
        · rw [List.reverse_cons, List.append_assoc] at hindex
          exact hindex

/-- A template that the scan takes is the writing of segments, and its positions are those that the
placeholders name. -/
theorem positionsFrom_eq_ok {whole : Text} :
    ∀ {t : Text} {indices : List Nat}, positionsFrom whole none t = .ok indices →
      ∃ segments, t = writeAll segments ∧ (∀ s ∈ segments, s.WellFormed) ∧
        (segments.filterMap Segment.body?).map position? = indices.map some
  | t, indices, h => by
      unfold positionsFrom at h
      split at h
      · cases h
        exact ⟨[], rfl, nofun, rfl⟩
      · next heq => cases heq
      · -- a doubled opening brace
        next t' _ =>
        obtain ⟨segments, rfl, hwell, hpositions⟩ := positionsFrom_eq_ok h
        exact ⟨.literal '{' :: segments, rfl, List.forall_mem_cons.mpr ⟨trivial, hwell⟩, hpositions⟩
      · -- a doubled closing brace
        next t' _ =>
        obtain ⟨segments, rfl, hwell, hpositions⟩ := positionsFrom_eq_ok h
        exact ⟨.literal '}' :: segments, rfl, List.forall_mem_cons.mpr ⟨trivial, hwell⟩, hpositions⟩
      · next c t' single _ _ =>
        by_cases hopen : c = '{'
        · -- a placeholder, and what is behind it
          rw [if_pos hopen] at h
          obtain ⟨body, rest, index, later, rfl, hbody, hindex, hrest, rfl⟩ := positionsFrom_some h
          obtain ⟨segments, rfl, hwell, hpositions⟩ := positionsFrom_eq_ok hrest
          refine ⟨.placeholder body :: segments, ?_, List.forall_mem_cons.mpr ⟨⟨hbody, ?_⟩, hwell⟩, ?_⟩
          · rw [hopen, writeAll_cons, Segment.write, List.cons_append, List.cons_append,
              List.append_assoc]
            rfl
          · intro hhead
            cases body with
            | nil => cases hhead
            | cons b body =>
                cases hhead
                exact single _ hopen rfl
          · show position? body :: List.map position? (segments.filterMap Segment.body?) = _
            rw [hpositions]
            exact congrArg (· :: _) hindex
        · rw [if_neg hopen] at h
          by_cases hclose : c = '}'
          · rw [if_pos hclose] at h
            cases h
          · rw [if_neg hclose] at h
            obtain ⟨segments, rfl, hwell, hpositions⟩ := positionsFrom_eq_ok h
            refine ⟨.literal c :: segments, ?_, List.forall_mem_cons.mpr ⟨trivial, hwell⟩, hpositions⟩
            rw [writeAll_cons, Segment.write, if_neg (not_or.mpr ⟨hopen, hclose⟩)]
            rfl
      · next heq => cases heq
termination_by t => t.length
decreasing_by
  all_goals subst_vars
  all_goals simp only [List.length_cons, List.length_append]
  all_goals omega

theorem positions_eq_ok {template : Text} {indices : List Nat}
    (h : positions template = .ok indices) :
    ∃ segments, template = writeAll segments ∧ (∀ s ∈ segments, s.WellFormed) ∧
      (segments.filterMap Segment.body?).map position? = indices.map some :=
  positionsFrom_eq_ok h

/-- Within a placeholder the scan reads on to the closing brace, and names what it has read. -/
theorem positionsFrom_key {whole t : Text} :
    ∀ {more key : Text}, '}' ∉ more →
      positionsFrom whole (some key) (more ++ '}' :: t) =
        match position? (key.reverse ++ more) with
        | none => .error (.notPositional (key.reverse ++ more))
        | some index =>
          match positionsFrom whole none t with
          | .ok rest => .ok (index :: rest)
          | .error fault => .error fault
  | [], key, _ => by
      rw [List.append_nil]
      rfl
  | c :: more, key, hclose => by
      obtain ⟨hc, hmore⟩ := not_or.mp fun h => hclose (List.mem_cons.mpr h)
      have hrest : positionsFrom whole (some (c :: key)) (more ++ '}' :: t) = _ := positionsFrom_key hmore
      rw [List.cons_append, positionsFrom, if_neg (Ne.symm hc), hrest, List.reverse_cons,
        List.append_assoc]
      rfl

/-- A placeholder that does not begin as a doubled brace does is entered. -/
theorem positionsFrom_placeholder (whole : Text) {body : Text} (hopen : body.head? ≠ some '{') (t : Text) :
    positionsFrom whole none ('{' :: (body ++ '}' :: t)) =
      positionsFrom whole (some []) (body ++ '}' :: t) := by
  cases body with
  | nil => rfl
  | cons b body =>
      have hb : b ≠ '{' := fun heq => hopen (congrArg some heq)
      simp [positionsFrom, hb]

/-- The writing of segments is taken, with the positions that the placeholders name. -/
theorem positionsFrom_write (whole : Text) :
    ∀ {segments : List Segment} {indices : List Nat}, (∀ s ∈ segments, s.WellFormed) →
      (segments.filterMap Segment.body?).map position? = indices.map some →
      positionsFrom whole none (writeAll segments) = .ok indices
  | [], indices, _, h => by
      cases indices with
      | nil => rfl
      | cons i indices => cases h
  | .literal c :: rest, indices, hwell, h => by
      have hrest : positionsFrom whole none (writeAll rest) = .ok indices :=
        positionsFrom_write whole (List.forall_mem_cons.mp hwell).2 h
      rw [writeAll_cons, ← hrest, Segment.write]
      by_cases hopen : c = '{'
      · subst hopen
        rfl
      · by_cases hclose : c = '}'
        · subst hclose
          rfl
        · simp [positionsFrom, hopen, hclose]
  | .placeholder body :: rest, indices, hwell, h => by
      obtain ⟨⟨hclose, hopen⟩, hrestWell⟩ := List.forall_mem_cons.mp hwell
      cases indices with
      | nil => cases h
      | cons index indices =>
          obtain ⟨hindex, hindices⟩ := List.cons.inj h
          have hrest : positionsFrom whole none (writeAll rest) = .ok indices :=
            positionsFrom_write whole hrestWell hindices
          rw [writeAll_cons, Segment.write, List.cons_append, List.cons_append, List.append_assoc]
          show positionsFrom whole none ('{' :: (body ++ '}' :: writeAll rest)) = _
          rw [positionsFrom_placeholder whole hopen, positionsFrom_key hclose, List.reverse_nil,
            List.nil_append, hindex, hrest]

/-! ## Filling -/

/-- The text of a segment.  A placeholder may hold no opening brace. -/
def fillSegment (args : List Text) : Segment → Except FormatFault Text
  | .literal c => .ok [c]
  | .placeholder body =>
    if '{' ∈ body then .error (.invalid "extra \x7b found") else fill args body

/-- The text of segments, up to the first that cannot be filled. -/
def fillAll (args : List Text) : List Segment → Except FormatFault Text
  | [] => .ok []
  | s :: rest =>
    match fillSegment args s with
    | .error fault => .error fault
    | .ok text => prepend text (fillAll args rest)

theorem fillFrom_close (args : List Text) (key t : Text) :
    fillFrom args (some key) false ('}' :: t) =
      match fill args key.reverse with
      | .error fault => .error fault
      | .ok value => prepend value (fillFrom args none false t) := by
  cases key <;> rfl

theorem fillFrom_open (args : List Text) {key : Text} (hkey : key ≠ []) (t : Text) :
    fillFrom args (some key) false ('{' :: t) = .error (.invalid "extra \x7b found") := by
  cases key with
  | nil => exact absurd rfl hkey
  | cons k key => rfl

theorem fillFrom_char (args : List Text) {c : Char} (hopen : c ≠ '{') (hclose : c ≠ '}') (key t : Text) :
    fillFrom args (some key) false (c :: t) = fillFrom args (some (c :: key)) false t := by
  cases key <;> simp [fillFrom, hopen, hclose]

/-- Within a placeholder the scanner reads to the closing brace, unless an opening one comes first. -/
theorem fillFrom_some {args : List Text} {t : Text} :
    ∀ {more key : Text}, '}' ∉ more → (key = [] → more.head? ≠ some '{') →
      fillFrom args (some key) false (more ++ '}' :: t) =
        if '{' ∈ more then .error (.invalid "extra \x7b found")
        else
          match fill args (key.reverse ++ more) with
          | .error fault => .error fault
          | .ok value => prepend value (fillFrom args none false t)
  | [], key, _, _ => by
      rw [if_neg List.not_mem_nil, List.append_nil, List.nil_append]
      exact fillFrom_close args key t
  | c :: more, key, hclose, hopen => by
      obtain ⟨hc, hmore⟩ := not_or.mp fun h => hclose (List.mem_cons.mpr h)
      rw [List.cons_append]
      by_cases hbrace : c = '{'
      · subst hbrace
        rw [if_pos List.mem_cons_self]
        exact fillFrom_open args (fun hkey => hopen hkey rfl) _
      · have hrest : fillFrom args (some (c :: key)) false (more ++ '}' :: t) = _ :=
          fillFrom_some hmore nofun
        rw [fillFrom_char args hbrace (Ne.symm hc), hrest, List.reverse_cons, List.append_assoc]
        have hmem : ('{' ∈ c :: more) = ('{' ∈ more) := by
          rw [List.mem_cons]
          exact propext (or_iff_right (Ne.symm hbrace))
        simp only [hmem]
        rfl

/-- To fill the writing of segments is to fill the segments. -/
theorem fillFrom_write {args : List Text} :
    ∀ {segments : List Segment}, (∀ s ∈ segments, s.WellFormed) →
      fillFrom args none false (writeAll segments) = fillAll args segments
  | [], _ => rfl
  | s :: rest, hwell => by
      obtain ⟨hs, hrest⟩ := List.forall_mem_cons.mp hwell
      rw [writeAll_cons, fillAll, ← fillFrom_write hrest]
      cases s with
      | literal c =>
          by_cases hopen : c = '{'
          · subst hopen
            simp only [Segment.write, fillSegment, true_or, if_true, List.cons_append, List.nil_append,
              fillFrom]
          · by_cases hclose : c = '}'
            · subst hclose
              simp [Segment.write, fillSegment, fillFrom]
            · simp [Segment.write, fillSegment, fillFrom, hopen, hclose]
      | placeholder body =>
          obtain ⟨hclose, hopen⟩ := hs
          have hbody : fillFrom args (some []) false (body ++ '}' :: writeAll rest) = _ :=
            fillFrom_some hclose fun _ => hopen
          rw [Segment.write, List.cons_append, List.cons_append, List.append_assoc, fillSegment]
          show fillFrom args (some []) false (body ++ '}' :: writeAll rest) = _
          rw [hbody]
          split <;> rfl

end Template

end GroundStation
