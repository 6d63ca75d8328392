/-
# When an accepted template can be filled

A template that is accepted when its parameter is compiled refers only to declared arguments.  That it can
be filled when a command is sent does not follow: the scan at compile time reads a position as any
spelling of a number and does not look behind a colon, while an argument goes by its plain decimal
numeral and the rest of a placeholder has to be a format that suits texts.

`render_total_iff` says exactly which accepted templates can be filled with every list of arguments: those
whose placeholders are all `Fillable`.  `render_leadingZero` is one that is accepted and cannot be filled.
-/
import GroundStation.Instrument.Exchange
import GroundStation.Proofs.Template.Segment

namespace GroundStation

namespace Template

/-! ## Formats that suit texts -/

/-- A format that lays out every text. -/
structure Format.SuitsTexts (f : Format) : Prop where
  type : f.type = none ∨ f.type = some 's'
  alternate : f.alternate = false
  grouped : f.grouped = false
  signed : f.signed = false
  /-- There is no sign behind which a text could be padded. -/
  unpadded : f.align = some .sign → f.width.getD 0 = 0

theorem Format.unsuited?_eq_none_iff {f : Format} :
    f.unsuited? = none ↔
      (f.type = none ∨ f.type = some 's') ∧ f.alternate = false ∧ f.grouped = false ∧ f.signed = false := by
  have htype : f.type.filter (· ≠ 's') = none ↔ f.type = none ∨ f.type = some 's' := by
    rcases f.type with _ | c
    · exact iff_of_true rfl (.inl rfl)
    · by_cases hc : c = 's' <;> simp [hc]
  unfold unsuited?
  constructor
  · intro h
    split at h
    · cases h
    · next hfilter =>
      split at h
      · cases h
      · next halternate =>
        split at h
        · cases h
        · next hgrouped =>
          split at h
          · cases h
          · next hsigned =>
            exact ⟨htype.mp hfilter, Bool.not_eq_true _ ▸ halternate, Bool.not_eq_true _ ▸ hgrouped,
              Bool.not_eq_true _ ▸ hsigned⟩
  · rintro ⟨ht, ha, hg, hs⟩
    rw [htype.mpr ht, ha, hg, hs]
    rfl

/-- A text cut to the places. -/
def Format.cut (f : Format) (value : Text) : Text :=
  match f.places with
  | some n => value.take n
  | none => value

/-- A text padded to the width. -/
def Format.pad (f : Format) (value : Text) : Except FormatFault Text :=
  if f.width.getD 0 - value.length = 0 then .ok value
  else
    match f.align.getD .left with
    | .left => .ok (value ++ List.replicate (f.width.getD 0 - value.length) f.fill)
    | .right => .ok (List.replicate (f.width.getD 0 - value.length) f.fill ++ value)
    | .centre =>
      .ok (List.replicate ((f.width.getD 0 - value.length) / 2) f.fill ++ value ++
        List.replicate (f.width.getD 0 - value.length - (f.width.getD 0 - value.length) / 2) f.fill)
    | .sign => .error (.invalid "sign aware zero padding and Align '=' not yet supported")

theorem Format.apply_eq {f : Format} (h : f.unsuited? = none) (value : Text) :
    f.apply value = f.pad (f.cut value) := by
  unfold apply cut
  rw [h]
  cases f.places <;> rfl

/-- What needs no padding, or is not padded behind a sign, can be padded. -/
theorem Format.pad_eq_ok_iff {f : Format} {value : Text} :
    (∃ t, f.pad value = .ok t) ↔ (f.align = some .sign → f.width.getD 0 - value.length = 0) := by
  unfold pad
  by_cases hmissing : f.width.getD 0 - value.length = 0
  · rw [if_pos hmissing]
    exact iff_of_true ⟨_, rfl⟩ fun _ => hmissing
  · rw [if_neg hmissing]
    rcases f.align with _ | align
    · exact iff_of_true ⟨_, rfl⟩ nofun
    · cases align with
      | left => exact iff_of_true ⟨_, rfl⟩ nofun
      | centre => exact iff_of_true ⟨_, rfl⟩ nofun
      | right => exact iff_of_true ⟨_, rfl⟩ nofun
      | sign =>
          refine iff_of_false ?_ fun h => hmissing (h rfl)
          rintro ⟨t, h⟩
          cases h

/-- A format that suits texts lays out every one. -/
theorem Format.apply_of_suitsTexts {f : Format} (h : f.SuitsTexts) (value : Text) :
    ∃ t, f.apply value = .ok t := by
  rw [apply_eq (unsuited?_eq_none_iff.mpr ⟨h.type, h.alternate, h.grouped, h.signed⟩)]
  refine pad_eq_ok_iff.mpr fun hsign => ?_
  rw [h.unpadded hsign, Nat.zero_sub]

/-- A format that lays out the empty text suits all. -/
theorem Format.suitsTexts_of_apply {f : Format} {t : Text} (h : f.apply [] = .ok t) : f.SuitsTexts := by
  cases hsuited : f.unsuited? with
  | some fault =>
      unfold apply at h
      rw [hsuited] at h
      cases h
  | none =>
      obtain ⟨htype, halternate, hgrouped, hsigned⟩ := unsuited?_eq_none_iff.mp hsuited
      rw [apply_eq hsuited] at h
      refine ⟨htype, halternate, hgrouped, hsigned, fun hsign => ?_⟩
      have hempty : (f.cut []).length = 0 := by
        unfold cut
        cases f.places with
        | none => rfl
        | some n => exact congrArg List.length List.take_nil
      have hmissing := pad_eq_ok_iff.mp ⟨t, h⟩ hsign
      rw [hempty, Nat.sub_zero] at hmissing
      exact hmissing

/-! ## Arguments -/

theorem ofNat_injective {i j : Nat} (h : Text.ofNat i = Text.ofNat j) : i = j := by
  have hdigits := congrArg (Nat.ofDigitChars 10 · 0) h
  simp only [Text.ofNat, Nat.ofDigitChars_ten_toDigits] at hdigits
  exact hdigits

theorem getElem?_of_argument? {args : List Text} {key value : Text}
    (h : argument? args key = some value) : ∃ i, key = Text.ofNat i ∧ args[i]? = some value := by
  obtain ⟨⟨v, i⟩, hfind, rfl⟩ := Option.map_eq_some_iff.mp h
  have hkey : Text.ofNat i = key := by simpa using List.find?_some hfind
  exact ⟨i, hkey.symm, List.mem_zipIdx_iff_getElem?.mp (List.mem_of_find?_eq_some hfind)⟩

/-- A key names the argument whose plain numeral it is. -/
theorem argument?_eq_some_iff {args : List Text} {key value : Text} :
    argument? args key = some value ↔ ∃ i, key = Text.ofNat i ∧ args[i]? = some value := by
  refine ⟨getElem?_of_argument?, ?_⟩
  rintro ⟨i, rfl, hvalue⟩
  cases hnamed : argument? args (Text.ofNat i) with
  | none =>
      have hnone := List.find?_eq_none.mp (Option.map_eq_none_iff.mp hnamed) (value, i)
        (List.mem_zipIdx_iff_getElem?.mpr hvalue)
      simp at hnone
  | some v =>
      obtain ⟨k, hkey, hv⟩ := getElem?_of_argument? hnamed
      rw [← ofNat_injective hkey, hvalue] at hv
      exact hv.symm

/-! ## Placeholders -/

/-- What stands before the first colon of a placeholder, and what behind it. -/
def parts (body : Text) : Text × Text := (Split.cutOnce? ':' body).getD (body, [])

/-- A placeholder that every list of so many arguments fills. -/
structure Fillable (arity : Nat) (body : Text) : Prop where
  unopened : '{' ∉ body
  /-- The position is spelled as a plain decimal numeral. -/
  named : ∃ i, i < arity ∧ (parts body).1 = Text.ofNat i
  format : ∃ f, Format.read (parts body).2 = .ok f ∧ f.SuitsTexts

theorem fill_eq (args : List Text) (body : Text) :
    fill args body =
      if (parts body).1.isEmpty then .error (.invalid "must specify identifier")
      else
        match Format.read (parts body).2 with
        | .error fault => .error fault
        | .ok format =>
          match argument? args (parts body).1 with
          | none => .error (.key ("Invalid key: " ++ (parts body).1))
          | some value => format.apply value := rfl

theorem fillSegment_of_fillable {arity : Nat} {body : Text} (h : Fillable arity body) {args : List Text}
    (hargs : args.length = arity) : ∃ t, fillSegment args (.placeholder body) = .ok t := by
  obtain ⟨i, hi, hkey⟩ := h.named
  obtain ⟨f, hread, hsuits⟩ := h.format
  rw [← hargs] at hi
  have hvalue : argument? args (parts body).1 = some args[i] :=
    argument?_eq_some_iff.mpr ⟨i, hkey, List.getElem?_eq_getElem hi⟩
  have hempty : ¬(parts body).1.isEmpty = true := by
    rw [hkey, List.isEmpty_iff]
    exact Nat.toDigits_ne_nil
  rw [fillSegment, if_neg h.unopened, fill_eq, if_neg hempty, hread, hvalue]
  exact Format.apply_of_suitsTexts hsuits args[i]

theorem fillable_of_fillSegment {arity : Nat} {body t : Text}
    (h : fillSegment (List.replicate arity []) (.placeholder body) = .ok t) : Fillable arity body := by
  rw [fillSegment] at h
  split at h
  · cases h
  · next hopen =>
    rw [fill_eq] at h
    split at h
    · cases h
    · split at h
      · cases h
      · next f hread =>
        split at h
        · cases h
        · next value hvalue =>
          obtain ⟨i, hkey, hi⟩ := argument?_eq_some_iff.mp hvalue
          obtain ⟨hlt, hnil⟩ := List.getElem?_eq_some_iff.mp hi
          rw [List.getElem_replicate] at hnil
          rw [List.length_replicate] at hlt
          subst hnil
          exact ⟨hopen, ⟨i, hlt, hkey⟩, f, hread, Format.suitsTexts_of_apply h⟩

/-- Segments can be filled when each can. -/
theorem fillAll_eq_ok_iff {args : List Text} :
    ∀ {segments : List Segment},
      (∃ t, fillAll args segments = .ok t) ↔ ∀ s ∈ segments, ∃ t, fillSegment args s = .ok t
  | [] => iff_of_true ⟨[], rfl⟩ fun _ hs => absurd hs List.not_mem_nil
  | s :: rest => by
      rw [List.forall_mem_cons, ← fillAll_eq_ok_iff, fillAll]
      cases fillSegment args s with
      | error fault =>
          refine iff_of_false ?_ ?_
          · rintro ⟨t, h⟩
            cases h
          · rintro ⟨⟨t, h⟩, -⟩
            cases h
      | ok text =>
          dsimp only
          cases fillAll args rest with
          | error fault =>
              refine iff_of_false ?_ ?_
              · rintro ⟨t, h⟩
                cases h
              · rintro ⟨-, t, h⟩
                cases h
          | ok more => exact iff_of_true ⟨_, rfl⟩ ⟨⟨_, rfl⟩, _, rfl⟩

/-! ## Accepted steps -/

theorem positions_of_stepFault? {arity : Nat} {step : Step} :
    ∀ {steps : List Step}, Parameter.stepFault? arity steps = none → step ∈ steps →
      ∃ indices, positions step.template = .ok indices ∧ ∀ i ∈ indices, i < arity
  | first :: rest, h, hstep => by
      rw [Parameter.stepFault?] at h
      split at h
      · cases h
      · next indices hindices =>
        split at h
        · cases h
        · next hfind =>
          rcases List.mem_cons.mp hstep with rfl | hrest
          · refine ⟨indices, hindices, ?_⟩
            intro i hi
            have hbound := List.find?_eq_none.mp hfind i hi
            simpa using hbound
          · exact positions_of_stepFault? h hrest

/-- The templates of accepted steps refer to declared arguments. -/
theorem positions_of_mem_compileSteps {id : Text} {accessor : AccessorDeclaration} {arity : Nat}
    {steps : List Step} (accepted : Parameter.compileSteps id accessor arity = .ok steps) {step : Step}
    (hstep : step ∈ steps) :
    ∃ indices, positions step.template = .ok indices ∧ ∀ i ∈ indices, i < arity := by
  unfold Parameter.compileSteps at accepted
  split at accepted
  · cases accepted
  · split at accepted
    · cases accepted
    · next hfault =>
      cases accepted
      exact positions_of_stepFault? hfault hstep

/-- A template all of whose placeholders are filled by every list of so many arguments. -/
def AllFillable (arity : Nat) (template : Text) : Prop :=
  ∃ segments, template = writeAll segments ∧ (∀ s ∈ segments, s.WellFormed) ∧
    ∀ body, .placeholder body ∈ segments → Fillable arity body

/-- To render the writing of segments is to fill each of them. -/
theorem render_write_iff {segments : List Segment} (hwell : ∀ s ∈ segments, s.WellFormed)
    (name : Text) (args : List Text) :
    (∃ t, render name (writeAll segments) args = .ok t) ↔
      ∀ s ∈ segments, ∃ t, fillSegment args s = .ok t := by
  rw [← fillAll_eq_ok_iff, ← fillFrom_write hwell, render]
  cases fillFrom args none false (writeAll segments) with
  | error fault =>
      refine iff_of_false ?_ ?_
      · rintro ⟨t, h⟩
        cases h
      · rintro ⟨t, h⟩
        cases h
  | ok text => exact iff_of_true ⟨_, rfl⟩ ⟨_, rfl⟩

theorem render_of_allFillable {arity : Nat} {template : Text} (h : AllFillable arity template)
    (name : Text) {args : List Text} (hargs : args.length = arity) :
    ∃ t, render name template args = .ok t := by
  obtain ⟨segments, rfl, hwell, hfillable⟩ := h
  refine (render_write_iff hwell name args).mpr fun s hs => ?_
  cases s with
  | literal c => exact ⟨[c], rfl⟩
  | placeholder body => exact fillSegment_of_fillable (hfillable body hs) hargs

/-- A link has failures of its own. -/
theorem ofLink_ne_template {e : LinkError} {name : Text} {fault : FormatFault} :
    Failure.ofLink e ≠ .command (.template name fault) := by
  unfold Failure.ofLink
  cases e <;> split <;> exact nofun

/-- Steps that can all be filled are never given up for a template. -/
theorem runSteps_of_allFillable {δ : Type} {i : Instrument δ} {name : Text} {args : List Text}
    {fault : FormatFault} :
    ∀ {steps : List Step} {last : Option Text} {d : δ},
      (∀ step ∈ steps, AllFillable args.length step.template) →
      (i.runSteps name args steps last d).1 ≠ .error (.command (.template name fault))
  | [], _, _, _ => by
      rw [Instrument.runSteps]
      intro heq
      cases heq
  | step :: rest, last, d, h => by
      obtain ⟨hstep, hrest⟩ := List.forall_mem_cons.mp h
      obtain ⟨command, hcommand⟩ := render_of_allFillable hstep name rfl
      rw [Instrument.runSteps, hcommand]
      dsimp only
      split
      · intro heq
        exact ofLink_ne_template (Except.error.inj heq)
      · exact runSteps_of_allFillable hrest

/-- Of the steps of an accepted command, the template of each can be filled with every list of as many
arguments as are declared exactly if all its placeholders can: if none holds an opening brace, and each
spells its position plainly and gives a format that suits texts.  Where all of them are so, no run of
the command is given up for a template. -/
theorem render_total_iff {id : Text} {accessor : AccessorDeclaration} {arity : Nat} {steps : List Step}
    (accepted : Parameter.compileSteps id accessor arity = .ok steps) :
    (∀ step ∈ steps,
      (∀ args : List Text, args.length = arity → ∃ t, render id step.template args = .ok t) ↔
        AllFillable arity step.template) ∧
    ((∀ step ∈ steps, AllFillable arity step.template) →
      ∀ {δ : Type} (i : Instrument δ) (args : List Text) (d : δ), args.length = arity →
        ∀ fault, (i.runSteps id args steps none d).1 ≠ .error (.command (.template id fault))) := by
  constructor
  · intro step hstep
    constructor
    · intro hall
      obtain ⟨indices, hpositions, -⟩ := positions_of_mem_compileSteps accepted hstep
      obtain ⟨segments, htemplate, hwell, -⟩ := positions_eq_ok hpositions
      rw [htemplate] at hall ⊢
      refine ⟨segments, rfl, hwell, fun body hbody => ?_⟩
      -- empty arguments are the hardest to fill in
      have hempty := hall (List.replicate arity []) List.length_replicate
      obtain ⟨t, ht⟩ := (render_write_iff hwell id _).mp hempty (.placeholder body) hbody
      exact fillable_of_fillSegment ht
    · intro h args hargs
      exact render_of_allFillable h id hargs
  · intro h δ i args d hargs fault
    subst hargs
    exact runSteps_of_allFillable h

/-- A right-aligned argument can be filled in, whatever it is. -/
theorem render_total_aligned :
    Parameter.compileSteps "volt" ⟨none, [⟨some "VOLT {0:>6}", none⟩]⟩ 1 = .ok [.write "VOLT {0:>6}"] ∧
    AllFillable 1 "VOLT {0:>6}" ∧
    ∀ args : List Text, args.length = 1 → ∃ t, render "volt" "VOLT {0:>6}" args = .ok t := by
  have accepted : Parameter.compileSteps "volt" ⟨none, [⟨some "VOLT {0:>6}", none⟩]⟩ 1 =
      .ok [.write "VOLT {0:>6}"] := rfl
  have hfillable : Fillable 1 "0:>6" :=
    ⟨by decide, ⟨0, by decide, rfl⟩, _, rfl, .inl rfl, rfl, rfl, rfl, nofun⟩
  have hall : AllFillable 1 "VOLT {0:>6}" := by
    refine ⟨("VOLT " : Text).map .literal ++ [.placeholder "0:>6"], rfl, by decide, ?_⟩
    intro body hbody
    have heq : body = "0:>6" := by simpa using hbody
    exact heq ▸ hfillable
  exact ⟨accepted, hall, ((render_total_iff accepted).1 _ List.mem_cons_self).mpr hall⟩

/-- A position with a leading zero is accepted and then names no argument. -/
theorem render_leadingZero :
    Parameter.compileSteps "volt" ⟨none, [⟨some "VOLT {00}", none⟩]⟩ 1 = .ok [.write "VOLT {00}"] ∧
    render "volt" "VOLT {00}" ["5"] = .error (.template "volt" (.key "Invalid key: 00")) :=
  ⟨rfl, rfl⟩

end Template

end GroundStation
