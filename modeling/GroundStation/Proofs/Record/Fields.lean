/-
# What a record says

A record is cut at every semicolon, and what stands between two of them is a field or nothing.  A key holds
no equals sign, since a field is cut at the first; a value holds any number of them, or nothing at all.
Text without an equals sign, or with only blanks before the first, is skipped, and its neighbours are read
as if it were not there.

`Reads` says what one such text is read as, and `Lists` what a whole record is read as.  Both describe the
reader on every text (`field?_eq_iff`, `fields_eq_iff`).  So fields that are written with semicolons between are
read back as they are, in their order and as often as they stand there (`fields_written`).
-/
import Mathlib.Data.List.Forall2
import GroundStation.Proofs.Text.Blank
import GroundStation.Proofs.Text.Split
import GroundStation.Record.Fields

namespace GroundStation

namespace Record

open Text (Padded Tight)

/-! ## One field -/

/-- What a text between two semicolons is read as. -/
inductive Reads : Text → Option (Text × Text) → Prop
  | field {key value front behind : Text} : Padded key front → Padded value behind → Tight key → '=' ∉ key →
      (value = [] ∨ Tight value) → Reads (front ++ '=' :: behind) (some (key, value))
  /-- There is no key, only blanks. -/
  | keyless {front behind : Text} : Padded [] front → Reads (front ++ '=' :: behind) none
  | bare {t : Text} : '=' ∉ t → Reads t none

theorem equals_solid : Text.isBlank '=' = false := rfl

theorem semicolon_solid : Text.isBlank ';' = false := rfl

theorem field?_of_reads {t : Text} {field : Option (Text × Text)} (h : Reads t field) : field? t = field := by
  cases h with
  | @field key value front behind hfront hbehind hkey plain hvalue =>
    have hfirst : '=' ∉ front := mt (hfront.mem_iff equals_solid).mp plain
    rw [field?, Split.cutOnce?_append behind hfirst]
    simp only [hfront.trim_eq (.inr hkey), hbehind.trim_eq hvalue, hkey.isEmpty, Bool.false_eq_true, if_false]
  | @keyless front behind hfront =>
    have hfirst : '=' ∉ front := mt (hfront.mem_iff equals_solid).mp List.not_mem_nil
    rw [field?, Split.cutOnce?_append behind hfirst]
    simp only [hfront.trim_eq (.inl rfl), List.isEmpty_nil, if_true]
  | bare hnone => rw [field?, Split.cutOnce?_of_not_mem hnone]

theorem reads_field? (t : Text) : Reads t (field? t) := by
  rw [field?]
  cases hcut : Split.cutOnce? '=' t with
  | none => exact .bare (Split.cutOnce?_eq_none_iff.mp hcut)
  | some cut =>
    obtain ⟨front, behind⟩ := cut
    obtain ⟨rfl, hfirst⟩ := Split.cutOnce?_eq_some_iff.mp hcut
    have hfront := Text.padded_trim front
    show Reads (front ++ '=' :: behind)
      (if (Text.trim front).isEmpty then none else some (Text.trim front, Text.trim behind))
    rcases Text.trim_eq_nil_or_tight front with hnil | hkey
    · rw [hnil] at hfront ⊢
      exact .keyless hfront
    · simp only [hkey.isEmpty, Bool.false_eq_true, if_false]
      exact .field hfront (Text.padded_trim behind) hkey (mt (hfront.mem_iff equals_solid).mpr hfirst)
        (Text.trim_eq_nil_or_tight behind)

theorem field?_eq_iff {t : Text} {field : Option (Text × Text)} : field? t = field ↔ Reads t field := by
  refine ⟨?_, field?_of_reads⟩
  rintro rfl
  exact reads_field? t

/-! ## A record -/

/-- The fields of a record: those of its texts between the semicolons. -/
inductive Lists : Text → List (Text × Text) → Prop
  | last {t : Text} {field : Option (Text × Text)} : ';' ∉ t → Reads t field → Lists t field.toList
  | more {t rest : Text} {field : Option (Text × Text)} {fs : List (Text × Text)} : ';' ∉ t → Reads t field →
      Lists rest fs → Lists (t ++ ';' :: rest) (field.toList ++ fs)

theorem fields_of_whole {t : Text} (whole : ';' ∉ t) : fields t = (field? t).toList := by
  rw [fields, Split.splitOn_of_not_mem whole]
  cases hfield : field? t with
  | none => exact List.filterMap_cons_none hfield
  | some field => exact List.filterMap_cons_some hfield

theorem fields_of_lists {record : Text} {fs : List (Text × Text)} (h : Lists record fs) : fields record = fs := by
  induction h with
  | last whole hreads => rw [fields_of_whole whole, field?_of_reads hreads]
  | more whole hreads _ ih => rw [fields_append, fields_of_whole whole, field?_of_reads hreads, ih]

/-- Every record is read, from one semicolon to the next: what stands behind the first is shorter. -/
theorem lists_fields (record : Text) : Lists record (fields record) := by
  cases hcut : Split.cutOnce? ';' record with
  | none =>
    have whole := Split.cutOnce?_eq_none_iff.mp hcut
    rw [fields_of_whole whole]
    exact .last whole (reads_field? record)
  | some cut =>
    obtain ⟨t, rest⟩ := cut
    obtain ⟨hrecord, whole⟩ := Split.cutOnce?_eq_some_iff.mp hcut
    have shorter : rest.length < record.length := by
      rw [hrecord, List.length_append, List.length_cons]
      omega
    rw [hrecord, fields_append, fields_of_whole whole]
    exact .more whole (reads_field? t) (lists_fields rest)
termination_by record.length

theorem fields_eq_iff {record : Text} {fs : List (Text × Text)} : fields record = fs ↔ Lists record fs := by
  refine ⟨?_, fields_of_lists⟩
  rintro rfl
  exact lists_fields record

example : fields "temp=21.5; volt = 3.3;junk" = ([("temp", "21.5"), ("volt", "3.3")] : List (Text × Text)) := rfl

/-! ## Records that are written -/

/-- A key and a value that a record can carry. -/
structure Carried (field : Text × Text) : Prop where
  key : Tight field.1
  value : field.2 = [] ∨ Tight field.2
  plain : '=' ∉ field.1
  whole_key : ';' ∉ field.1
  whole_value : ';' ∉ field.2

/-- A key and a value with an equals sign between, and any number of blanks around each. -/
inductive Written : Text × Text → Text → Prop
  | padded {key value front behind : Text} : Padded key front → Padded value behind →
      Written (key, value) (front ++ '=' :: behind)

theorem Carried.reads {field : Text × Text} {t : Text} (h : Carried field) (written : Written field t) :
    Reads t (some field) := by
  cases written with
  | padded hfront hbehind => exact .field hfront hbehind h.key h.plain h.value

theorem Carried.whole {field : Text × Text} {t : Text} (h : Carried field) (written : Written field t) :
    ';' ∉ t := by
  cases written with
  | padded hfront hbehind =>
    intro hmem
    rcases List.mem_append.mp hmem with hmem | hmem
    · exact h.whole_key ((hfront.mem_iff semicolon_solid).mp hmem)
    · rcases List.mem_cons.mp hmem with heq | hmem
      · exact absurd heq (by decide)
      · exact h.whole_value ((hbehind.mem_iff semicolon_solid).mp hmem)

theorem lists_join {fs : List (Text × Text)} {texts : List Text} (written : List.Forall₂ Written fs texts)
    (carried : ∀ field ∈ fs, Carried field) : Lists (Text.join [';'] texts) fs := by
  induction written with
  | nil => exact .last List.not_mem_nil (.bare List.not_mem_nil)
  | @cons field t fs texts hwritten rest ih =>
    obtain ⟨hfield, hrest⟩ := List.forall_mem_cons.mp carried
    have whole := hfield.whole hwritten
    have hreads := hfield.reads hwritten
    cases rest with
    | nil => exact .last whole hreads
    | cons _ _ =>
      rw [Text.join_cons_cons]
      exact .more whole hreads (ih hrest)

/-- A semicolon keeps what stands on either side of it apart, and fields that are written with semicolons
between are the fields of the record. -/
theorem fields_written :
    (∀ a b : Text, fields (a ++ ';' :: b) = fields a ++ fields b) ∧
    ∀ (fs : List (Text × Text)) (texts : List Text), (∀ field ∈ fs, Carried field) →
      List.Forall₂ Written fs texts → fields (Text.join [';'] texts) = fs := by
  refine ⟨fields_append, fun fs texts carried written => ?_⟩
  have hlists := lists_join written carried
  exact fields_of_lists hlists

/-- A value that holds an equals sign, one that is missing, a key that stands twice, and blanks of several kinds. -/
theorem fields_written_spaced :
    let fs : List (Text × Text) := [("temp", "a = b"), ("volt", ""), ("volt", "3.3")]
    let texts : List Text := [" temp\u3000=\ta = b ", "volt=", "\u0085volt =3.3"]
    (∀ field ∈ fs, Carried field) ∧ List.Forall₂ Written fs texts ∧
      fields " temp\u3000=\ta = b ;volt=;\u0085volt =3.3" = fs := by
  intro fs texts
  have temp : Tight "temp" := Text.IsWord.tight (by decide)
  have volt : Tight "volt" := Text.IsWord.tight (by decide)
  have carried : ∀ field ∈ fs, Carried field := by
    have spaced : Tight "a = b" := ⟨⟨'a', " = b", rfl, rfl⟩, "a = ", 'b', rfl, rfl⟩
    have number : Tight "3.3" := Text.IsWord.tight (by decide)
    have first : Carried ("temp", "a = b") := ⟨temp, .inr spaced, by decide, by decide, by decide⟩
    have second : Carried ("volt", "") := ⟨volt, .inl rfl, by decide, by decide, by decide⟩
    have third : Carried ("volt", "3.3") := ⟨volt, .inr number, by decide, by decide, by decide⟩
    exact List.forall_mem_cons.mpr ⟨first, List.forall_mem_cons.mpr ⟨second, List.forall_mem_singleton.mpr third⟩⟩
  have written : List.Forall₂ Written fs texts := by
    have blank : ∀ {c : Char}, Text.isBlank c = true → ∀ d ∈ [c], Text.isBlank d = true :=
      fun hc => List.forall_mem_singleton.mpr hc
    have first : Written ("temp", "a = b") " temp\u3000=\ta = b " :=
      .padded ⟨[' '], ['\u3000'], blank rfl, blank rfl, rfl⟩ ⟨['\t'], [' '], blank rfl, blank rfl, rfl⟩
    have second : Written ("volt", "") "volt=" := .padded (Padded.refl "volt") (Padded.refl "")
    have third : Written ("volt", "3.3") "\u0085volt =3.3" :=
      .padded ⟨['\u0085'], [' '], blank rfl, blank rfl, rfl⟩ (Padded.refl "3.3")
    exact .cons first (.cons second (.cons third .nil))
  have record : Text.join [';'] texts = " temp\u3000=\ta = b ;volt=;\u0085volt =3.3" := rfl
  obtain ⟨-, reads⟩ := fields_written
  refine ⟨carried, written, ?_⟩
  rw [← record]
  exact reads fs texts carried written

end Record

end GroundStation
