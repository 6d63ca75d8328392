/-
# One device, read in two ways

A device that answers queries is read line by line in the encoding of its link, and a device that sends on
its own is read record by record, in UTF-8 whatever the encoding.  For the same bytes both give the same text
as long as UTF-8 writes the text and its termination as the link does; in Latin-1 that is so for ASCII alone,
and for nothing else do both give the same (`push_agrees`).  A label with an accent is read by a query and is
broken as a record (`push_agrees_latin`).

A termination may overlap itself, as `aa` behind a record that ends in `a`.  Then the line ends early for both,
and may be blank, which is a line for a query and no record for a stream.
-/
import GroundStation.Instrument.Request
import GroundStation.Link.Tcp
import GroundStation.Proofs.Link.Framing
import GroundStation.Proofs.Link.LineBuffer

namespace GroundStation

/-! ## Streams that fit -/

namespace Record

namespace Accumulator

/-- A byte that completes the terminator completes the record, if there is room for it. -/
theorem step_of_room {terminator held : Bytes} (filled : terminator ≠ []) (room : held.length < capacity)
    (b : UInt8) :
    step terminator.reverse ⟨terminator, held, false⟩ b =
      if terminator.reverse.isPrefixOf (b :: held) then
        (textOf? ((b :: held).drop terminator.reverse.length).reverse, start terminator)
      else (none, ⟨terminator, b :: held, false⟩) := by
  have hpes : terminator.reverse.isEmpty = false := by
    rw [List.isEmpty_reverse]
    exact List.isEmpty_eq_false_iff.mpr filled
  have hroom : hasRoom ⟨terminator, held, false⟩ = true := decide_eq_true room
  rw [step, if_pos hroom, hold, hpes]
  rfl

/-- Of a stream that fits into the capacity no record is given up. -/
theorem pushFrom_of_fits {terminator : Bytes} (filled : terminator ≠ []) :
    ∀ {bytes held : Bytes}, held.length + bytes.length ≤ capacity →
      (pushFrom terminator.reverse ⟨terminator, held, false⟩ bytes).1 =
        (Split.segmentsFrom terminator.reverse held bytes).1.filterMap textOf?
  | [], _, _ => rfl
  | b :: bytes, held, fits => by
      rw [List.length_cons] at fits
      have hrest : ([] : Bytes).length + bytes.length ≤ capacity := by
        rw [List.length_nil]
        omega
      have hmore : (b :: held).length + bytes.length ≤ capacity := by
        rw [List.length_cons]
        omega
      rw [pushFrom, step_of_room filled (by omega), Split.segmentsFrom]
      by_cases hclosed : terminator.reverse.isPrefixOf (b :: held) = true
      · rw [if_pos hclosed, if_pos hclosed]
        show (textOf? _).toList ++ (pushFrom terminator.reverse ⟨terminator, [], false⟩ bytes).1 = _
        rw [pushFrom_of_fits filled hrest, List.filterMap_cons]
        cases textOf? ((b :: held).drop terminator.reverse.length).reverse <;> rfl
      · rw [if_neg hclosed, if_neg hclosed]
        exact pushFrom_of_fits filled hmore

theorem push_of_fits {terminator bytes : Bytes} (filled : terminator ≠ []) (fits : bytes.length ≤ capacity) :
    ((start terminator).push bytes).1 = (Split.segments terminator bytes).1.filterMap textOf? :=
  pushFrom_of_fits filled (by rwa [List.length_nil, Nat.zero_add])

theorem textOf?_eq_some_iff {bytes : Bytes} {t : Text} :
    textOf? bytes = some t ↔ Text.trim (Utf8.decode bytes) = t ∧ t ≠ [] := by
  rw [textOf?]
  constructor
  · intro h
    split at h
    · cases h
    · next hfilled =>
      cases h
      exact ⟨rfl, fun hnil => hfilled (List.isEmpty_iff.mpr hnil)⟩
  · rintro ⟨rfl, hfilled⟩
    exact if_neg fun hempty => hfilled (List.isEmpty_iff.mp hempty)

end Accumulator

end Record

namespace Tcp

/-- A query finds the line that is buffered. -/
theorem query_of_buffered {π : Type} {socket : Socket π} {l : Link} {line rest : Bytes}
    (buffered : LineBuffer.take? l.framing.readTermination l.buffer = some (line, rest)) {command : Text} {p p' : π}
    (sent : write socket l command p = (.ok (), p')) (patience : Nat) :
    query socket patience l command p = (.ok (l.framing.decode line), { l with buffer := rest }, p') := by
  rw [query, sent]
  dsimp only
  rw [readLine.eq_def, buffered]

end Tcp

/-! ## One record and its termination -/

section

variable {e : Encoding} {record termination : Text} {bytes sep : Bytes}

/-- The line of an encoded record: less than a termination is left behind it. -/
theorem LineBuffer.exists_take? (terminated : termination ≠ []) (encoded : e.encode record = .ok bytes)
    (hsep : e.encode termination = .ok sep) (single : ¬termination <:+: record) :
    ∃ line rest, take? sep (bytes ++ sep) = some (line, rest) ∧ bytes ++ sep = line ++ sep ++ rest ∧
      ¬sep <:+: (line ++ sep).dropLast ∧ rest.length < sep.length := by
  have filled := Encoding.ne_nil_of_encode terminated hsep
  have free : ¬sep <:+: bytes := by
    rintro ⟨front, behind, rfl⟩
    obtain ⟨before, after, rfl, -, -⟩ := Encoding.split_of_encode terminated hsep encoded
    exact single ⟨before, after, rfl⟩
  obtain ⟨line, rest, hcut⟩ := Split.exists_cut? (List.suffix_append bytes sep).isInfix
  obtain ⟨hread, hfirst⟩ := Split.cut?_eq_some filled hcut
  exact ⟨line, rest, (take?_of_ne_nil filled _).trans hcut, hread, hfirst, Split.length_lt_of_cut free hread⟩

/-- What UTF-8 writes as the link does makes the record that is the text of the line, if it has one. -/
theorem Record.push_of_alike {line rest : Bytes} (terminated : termination ≠ [])
    (encoded : e.encode record = .ok bytes) (hsep : e.encode termination = .ok sep)
    (alike : e = .latin1 → record.IsAscii ∧ termination.IsAscii) (hread : bytes ++ sep = line ++ sep ++ rest)
    (first : ¬sep <:+: (line ++ sep).dropLast) (short : rest.length < sep.length)
    (fits : bytes.length + sep.length ≤ capacity) :
    ((Accumulator.start (Utf8.encode termination)).push (bytes ++ sep)).1 =
      if Text.trim (e.decode line) = [] then [] else [Text.trim (e.decode line)] := by
  have hbytes : bytes = Utf8.encode record := Encoding.encode_eq_utf8 encoded fun h => (alike h).1
  have hterminator : sep = Utf8.encode termination := Encoding.encode_eq_utf8 hsep fun h => (alike h).2
  have hdecode : e.decode line = Utf8.decode line := by
    refine Encoding.decode_eq_utf8 fun h b hb => ?_
    have hmem : b ∈ bytes ++ sep := by
      rw [hread]
      exact List.mem_append_left _ (List.mem_append_left _ hb)
    rcases List.mem_append.mp hmem with hmem | hmem
    · rw [hbytes] at hmem
      exact Utf8.lt_of_mem_encode (alike h).1 b hmem
    · rw [hterminator] at hmem
      exact Utf8.lt_of_mem_encode (alike h).2 b hmem
  have filled := Encoding.ne_nil_of_encode terminated hsep
  rw [← hterminator, Accumulator.push_of_fits filled (by rwa [List.length_append]), hread,
    Split.segments_of_cut filled first short, hdecode, List.filterMap_cons, Accumulator.textOf?]
  cases Text.trim (Utf8.decode line) <;> rfl

/-- In Latin-1 the record is the text of the line only if both are ASCII. -/
theorem Record.alike_of_push (terminated : termination ≠ []) (encoded : Encoding.latin1.encode record = .ok bytes)
    (hsep : Encoding.latin1.encode termination = .ok sep)
    (ends : ¬termination <:+: (record ++ termination).dropLast) (fits : bytes.length + sep.length ≤ capacity)
    (hpush : ((Accumulator.start (Utf8.encode termination)).push (bytes ++ sep)).1 = [Text.trim record]) :
    record.IsAscii ∧ termination.IsAscii := by
  have hrecord : bytes.map Encoding.latinChar = record := Encoding.encodeLatin_eq_ok_iff.mp encoded
  have htermination : sep.map Encoding.latinChar = termination := Encoding.encodeLatin_eq_ok_iff.mp hsep
  have filled : Utf8.encode termination ≠ [] := Encoding.ne_nil_of_encode (e := .utf8) terminated rfl
  rw [Accumulator.push_of_fits filled (by rwa [List.length_append])] at hpush
  have hmem : Text.trim record ∈
      (Split.segments (Utf8.encode termination) (bytes ++ sep)).1.filterMap Accumulator.textOf? := by
    rw [hpush]
    exact List.mem_singleton_self _
  obtain ⟨segment, hsegment, htext⟩ := List.mem_filterMap.mp hmem
  obtain ⟨hsame, -⟩ := Accumulator.textOf?_eq_some_iff.mp htext
  rw [← hrecord] at hsame
  have hfound := (Split.leftmost_segments filled (bytes ++ sep)).closed segment hsegment
  have hascii := Encoding.ascii_of_read htermination hfound hsame
  obtain ⟨hline, hend⟩ := List.forall_mem_append.mp hascii
  refine ⟨?_, hend⟩
  -- the terminator is the termination, so that the segment is the record
  have hterminator : sep = Utf8.encode termination := Encoding.encode_eq_utf8 hsep fun _ => hend
  have hends := Encoding.ends_of_encode terminated encoded hsep ends
  have hsegments : Split.segments sep (bytes ++ sep) = ([bytes], []) := by
    have hne : sep ≠ [] := hterminator ▸ filled
    rw [← List.append_nil (bytes ++ sep)]
    exact Split.segments_of_cut hne hends (List.length_pos_iff.mpr hne)
  rw [← hterminator, hsegments, List.mem_singleton] at hsegment
  rw [hsegment] at hsame
  rw [← hrecord]
  exact Encoding.ascii_of_trim hline hsame

end

/-! ## The two ways of an instrument -/

namespace Instrument

/-- Whether UTF-8 writes a record and its termination as the link of an instrument does. -/
def WrittenAlike (c : InstrumentConfig) (record : Text) : Prop :=
  c.encoding = .latin1 → record.IsAscii ∧ c.readTermination.IsAscii

instance (c : InstrumentConfig) (record : Text) : Decidable (WrittenAlike c record) :=
  inferInstanceAs (Decidable (c.encoding = .latin1 → record.IsAscii ∧ c.readTermination.IsAscii))

theorem readTermination_of_ofConfig {c : InstrumentConfig} {f : Framing} (framing : Framing.ofConfig c = .ok f) :
    f.encoding = c.encoding ∧ c.encoding.encode c.readTermination = .ok f.readTermination := by
  obtain ⟨hencoding, -, hread⟩ := Framing.ofConfig_eq_ok_iff.mp framing
  exact ⟨hencoding, hread⟩

variable {δ : Type}

/-- For every instrument that acquires data, every encoding and every record that is not blank, can be
encoded, does not contain the termination and fits with it into the capacity.  A query takes one line from
the encoded record and termination.  The accumulator gives out the text of this line and nothing else, or
nothing where the line is blank, if UTF-8 writes the record and the termination as the link does.  Where the
termination first ends in its own place, the line is the record, and what is given out is its text exactly if
UTF-8 writes both so. -/
theorem push_agrees {i : Instrument δ} {a : Record.Accumulator} {f : Framing} (worker : i.newWorker = some a)
    (framing : Framing.ofConfig i.config = .ok f) (terminated : i.config.readTermination ≠ [])
    {record : Text} {bytes : Bytes} (encoded : i.config.encoding.encode record = .ok bytes)
    (single : ¬i.config.readTermination <:+: record) (filled : Text.trim record ≠ [])
    (fits : bytes.length + f.readTermination.length ≤ Record.capacity) :
    ∃ line rest,
      (∀ (π : Type) (socket : Socket π) (patience : Nat) (command : Text) (p p' : π),
        Tcp.write socket ⟨f, bytes ++ f.readTermination⟩ command p = (.ok (), p') →
        Tcp.query socket patience ⟨f, bytes ++ f.readTermination⟩ command p =
          (.ok (f.decode line), ⟨f, rest⟩, p')) ∧
      (WrittenAlike i.config record →
        (a.push (bytes ++ f.readTermination)).1 = if f.decode line = [] then [] else [f.decode line]) ∧
      (¬i.config.readTermination <:+: (record ++ i.config.readTermination).dropLast →
        line = bytes ∧ f.decode line = Text.trim record ∧
        ((a.push (bytes ++ f.readTermination)).1 = [f.decode line] ↔ WrittenAlike i.config record)) := by
  obtain ⟨hencoding, hsep⟩ := readTermination_of_ofConfig framing
  have hstart : a = .start (Utf8.encode i.config.readTermination) := by
    obtain ⟨_, -, ha⟩ := Option.map_eq_some_iff.mp worker
    exact ha.symm
  subst hstart
  obtain ⟨line, rest, htake, hread, hfirst, hshort⟩ := LineBuffer.exists_take? terminated encoded hsep single
  have hdecode : f.decode line = Text.trim (i.config.encoding.decode line) := by
    rw [Framing.decode, hencoding]
  have hpush : WrittenAlike i.config record →
      ((Record.Accumulator.start (Utf8.encode i.config.readTermination)).push (bytes ++ f.readTermination)).1 =
        if f.decode line = [] then [] else [f.decode line] := by
    intro alike
    rw [hdecode]
    exact Record.push_of_alike terminated encoded hsep alike hread hfirst hshort fits
  refine ⟨line, rest, ?_, hpush, fun ends => ?_⟩
  · intro π socket patience command p p' sent
    exact Tcp.query_of_buffered htake sent patience
  · have hends := Encoding.ends_of_encode terminated encoded hsep ends
    have hne := Encoding.ne_nil_of_encode terminated hsep
    have hline : line = bytes := by
      rw [LineBuffer.take?_of_ne_nil hne, Split.cut?_append_self hne hends] at htake
      cases htake
      rfl
    have htext : f.decode line = Text.trim record := by
      rw [hdecode, hline, Encoding.decode_of_encode encoded]
    refine ⟨hline, htext, fun given hlatin => ?_, fun alike => ?_⟩
    · rw [htext] at given
      rw [hlatin] at encoded hsep
      exact Record.alike_of_push terminated encoded hsep ends fits given
    · rw [hpush alike, htext, if_neg filled]

/-- A supply that sends labels on its own, each with a line feed behind it. -/
def labelConfig (encoding : Encoding) : InstrumentConfig :=
  { InstrumentConfig.supply with
    encoding
    readTermination := "\n"
    cyclic := some ⟨.stream, 1000, ["label"]⟩
    parameters := [("label", ⟨"label", some "str", none, none, some ⟨none, [⟨none, some "L?"⟩]⟩, none⟩)] }

/-- In UTF-8 a label beyond ASCII reads alike in both ways. -/
theorem push_agrees_micro :
    ∃ (i : Instrument Bench) (a : Record.Accumulator) (f : Framing),
      assemble Bench.registry (labelConfig .utf8) = .ok i ∧ i.newWorker = some a ∧
      Framing.ofConfig i.config = .ok f ∧ i.config.readTermination ≠ [] ∧
      i.config.encoding.encode "µ" = .ok [0xC2, 0xB5] ∧ ¬i.config.readTermination <:+: ("µ" : Text) ∧
      Text.trim ("µ" : Text) ≠ [] ∧ [0xC2, 0xB5].length + f.readTermination.length ≤ Record.capacity ∧
      (∀ (patience : Nat) (p p' : Peer),
        Tcp.write Peer.socket ⟨f, [0xC2, 0xB5] ++ f.readTermination⟩ "L?" p = (.ok (), p') →
        (Tcp.query Peer.socket patience ⟨f, [0xC2, 0xB5] ++ f.readTermination⟩ "L?" p).1 = .ok "µ") ∧
      (a.push ([0xC2, 0xB5] ++ f.readTermination)).1 = [("µ" : Text)] := by
  obtain ⟨i, accepted⟩ : ∃ i, assemble Bench.registry (labelConfig .utf8) = .ok i := ⟨_, rfl⟩
  have config : i.config = labelConfig .utf8 := by
    cases accepted
    rfl
  have worker : i.newWorker = some (.start [0x0A]) := by
    rw [newWorker, config]
    rfl
  have framing : Framing.ofConfig i.config = .ok ⟨.utf8, [], [0x0A]⟩ := by
    rw [config]
    rfl
  have terminated : i.config.readTermination ≠ [] := by
    rw [config]
    decide
  have encoded : i.config.encoding.encode "µ" = .ok [0xC2, 0xB5] := by
    rw [config]
    rfl
  have single : ¬i.config.readTermination <:+: ("µ" : Text) := by
    rw [config]
    decide
  have ends : ¬i.config.readTermination <:+: (("µ" : Text) ++ i.config.readTermination).dropLast := by
    rw [config]
    decide
  have alike : WrittenAlike i.config "µ" := by
    rw [config]
    decide
  obtain ⟨line, rest, hquery, -, hpush⟩ :=
    push_agrees worker framing terminated encoded single (by decide) (by decide)
  obtain ⟨-, htext, hiff⟩ := hpush ends
  have htrim : Text.trim ("µ" : Text) = ("µ" : Text) := by decide
  rw [htrim] at htext
  refine ⟨i, _, _, accepted, worker, framing, terminated, encoded, single, by decide, by decide, ?_, ?_⟩
  · intro patience p p' sent
    rw [hquery Peer Peer.socket patience "L?" p p' sent, htext]
  · rw [hiff.mpr alike, htext]

/-- In Latin-1 a label beyond ASCII is read by a query, and broken where it is sent on its own. -/
theorem push_agrees_latin :
    ∃ (i : Instrument Bench) (a : Record.Accumulator) (f : Framing),
      assemble Bench.registry (labelConfig .latin1) = .ok i ∧ i.newWorker = some a ∧
      Framing.ofConfig i.config = .ok f ∧ i.config.readTermination ≠ [] ∧
      i.config.encoding.encode "é" = .ok [0xE9] ∧ ¬i.config.readTermination <:+: ("é" : Text) ∧
      Text.trim ("é" : Text) ≠ [] ∧ [0xE9].length + f.readTermination.length ≤ Record.capacity ∧
      LineBuffer.take? f.readTermination ([0xE9] ++ f.readTermination) = some ([0xE9], []) ∧
      f.decode [0xE9] = ("é" : Text) ∧
      (a.push ([0xE9] ++ f.readTermination)).1 = [[Utf8.replacement]] ∧ Utf8.replacement ≠ 'é' := by
  refine ⟨_, _, _, rfl, rfl, rfl, ?_⟩
  exact ⟨by decide, rfl, by decide, by decide, by decide, by decide, by decide, by decide, by decide⟩

end Instrument

end GroundStation
