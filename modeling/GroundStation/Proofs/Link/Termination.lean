/-
# Where a command ends on a link of lines

A device knows the end of a command by the termination behind it.  What a request to set a parameter sends is
one block for each step, the step filled in and terminated, so a step is one command as long as its text
does not hold the termination.  Nobody looks for it there: the arguments are checked for their types, and
that on the trimmed text, and are filled in as they are.

`execute_terminated` says when a block ends once: if and only if, in the text with the termination behind
it, the termination is found at the end alone.  For that it is enough that the first character of the
termination is not the space and stands neither in the template nor in an argument; and if it is no letter,
digit, sign or point, an argument of a type other than `str` can hold it only among the blanks around it.
`execute_terminated_twice` is a number with a line feed behind it, which is sent as two commands.
-/
import GroundStation.Proofs.Link.Framing
import GroundStation.Proofs.Link.Lines
import GroundStation.Proofs.Parameter.Arguments
import GroundStation.Proofs.Parameter.Characters
import GroundStation.Proofs.Template.Characters

namespace GroundStation

/-! ## Texts and their terminations -/

/-- Where the first element of a separator is foreign, the separator is found at the end alone. -/
theorem Split.ends_of_not_mem {α : Type} {c : α} {rest xs : List α} (foreign : c ∉ xs) :
    ¬c :: rest <:+: (xs ++ c :: rest).dropLast := by
  rw [infix_dropLast_iff (List.cons_ne_nil c rest)]
  rintro ⟨before, after, hne, heq⟩
  rw [List.append_assoc] at heq
  rcases List.append_eq_append_iff.mp heq with ⟨more, -, hsep⟩ | ⟨more, hxs, hsep⟩
  · -- the separator would be longer than itself
    have hlength := congrArg List.length hsep
    simp only [List.length_append] at hlength
    exact hne (List.length_eq_zero_iff.mp (by omega))
  · cases more with
    | nil =>
      have hafter : after = [] := by simpa using hsep
      exact hne hafter
    | cons x more =>
      obtain ⟨rfl, -⟩ := List.cons.inj hsep
      exact foreign (hxs ▸ List.mem_append_right _ List.mem_cons_self)

namespace InstrumentConfig

variable {c : InstrumentConfig} {command : Text} {block : Bytes}

/-- A block ends with the termination of the instrument, and holds it nowhere else. -/
def Terminated (c : InstrumentConfig) (block : Bytes) : Prop :=
  ∃ sep, c.encoding.encode c.writeTermination = .ok sep ∧ sep <:+ block ∧ ¬sep <:+: block.dropLast

/-- Of a command nothing is sent, or one block. -/
theorem blocks_cases (c : InstrumentConfig) (command : Text) :
    c.blocks command = [] ∨
      ∃ block, c.blocks command = [block] ∧
        c.encoding.encode (command ++ c.writeTermination) = .ok block := by
  unfold blocks
  split
  · next f hconfig =>
    unfold Framing.blocks
    cases hframe : f.frame command with
    | error e => exact .inl rfl
    | ok block => exact .inr ⟨block, rfl, (Framing.frame_eq_ok_iff hconfig).mp hframe⟩
  · exact .inl rfl

theorem terminated_iff (terminated : c.writeTermination ≠ [])
    (encoded : c.encoding.encode (command ++ c.writeTermination) = .ok block) :
    c.Terminated block ↔ ¬c.writeTermination <:+: (command ++ c.writeTermination).dropLast := by
  obtain ⟨bytes, sep, rfl, hbytes, hsep⟩ := Encoding.exists_encode_of_append encoded
  rw [← Encoding.ends_of_encode_iff terminated hbytes hsep]
  constructor
  · rintro ⟨sep', hsep', -, ends⟩
    cases hsep.symm.trans hsep'
    exact ends
  · exact fun ends => ⟨sep, hsep, List.suffix_append bytes sep, ends⟩

end InstrumentConfig

/-- Each block that is sent is that of one step, the steps in order. -/
theorem Rendered.blocks {c : InstrumentConfig} {args : List Text} {steps : List Step} {commands : List Text}
    (rendered : Rendered args steps commands) :
    ∃ sent, sent.Sublist steps ∧
      List.Forall₂ (fun step block => ∃ id command, Template.render id step.template args = .ok command ∧
        c.encoding.encode (command ++ c.writeTermination) = .ok block) sent (commands.flatMap c.blocks) := by
  obtain ⟨done, hprefix, hdone⟩ := rendered
  suffices h : ∃ sent, sent.Sublist done ∧
      List.Forall₂ (fun step block => ∃ id command, Template.render id step.template args = .ok command ∧
        c.encoding.encode (command ++ c.writeTermination) = .ok block) sent (commands.flatMap c.blocks) by
    obtain ⟨sent, hsent, each⟩ := h
    exact ⟨sent, hsent.trans hprefix.sublist, each⟩
  clear hprefix
  induction hdone with
  | nil => exact ⟨[], .slnil, .nil⟩
  | @cons step command _ _ hcommand _ ih =>
    obtain ⟨sent, hsent, each⟩ := ih
    obtain ⟨id, hcommand⟩ := hcommand
    rw [List.flatMap_cons]
    rcases c.blocks_cases command with hnone | ⟨block, hblock, encoded⟩
    · rw [hnone]
      exact ⟨sent, hsent.cons step, each⟩
    · rw [hblock]
      exact ⟨step :: sent, hsent.cons_cons step, .cons ⟨id, command, hcommand, encoded⟩ each⟩

/-! ## Requests to set a parameter -/

/-- What keeps a character out of an argument: it is not there, or the type of the argument does not allow
it and nothing stands around. -/
def KeepsOut (w : Setter) (args : List Text) (ch : Char) : Prop :=
  ∀ (k : Nat) (arg : Text), args[k]? = some arg → ch ∉ arg ∨
    (Text.isPlain ch = false ∧ Text.trim arg = arg ∧
      ∃ type, w.argTypes[k]? = some (some type) ∧ type ≠ ValueType.str)

theorem not_mem_of_keepsOut {p : Parameter} {w : Setter} {args : List Text} {values : List (Option Json)}
    (checked : p.checkArgs w args = .ok values) {ch : Char} (out : KeepsOut w args ch) :
    ∀ arg ∈ args, ch ∉ arg := by
  intro arg harg hmem
  obtain ⟨k, hk⟩ := List.mem_iff_getElem?.mp harg
  rcases out k arg hk with absent | ⟨rare, tight, type, htype, ne⟩
  · exact absent hmem
  · have parses : type.parse? arg ≠ none := fun none =>
      Parameter.not_argumentFault_of_checkArgs checked (.type hk htype none)
    have plain := ValueType.isPlain_of_parse ne parses ch (tight.symm ▸ hmem)
    rw [rare] at plain
    cases plain

namespace Instrument

variable {δ π : Type}

/-- Of an instrument on any link of lines, whatever has been done with it: a request to set a parameter whose
arguments pass the check tells the device one block for each step that is sent, in order and nothing else,
the block being the step filled in, terminated and encoded.  It ends with the termination and holds it
nowhere else if and only if that is so of the text; and so it is where the first character of the
termination is not the space and is kept out of the template and the arguments. -/
theorem execute_terminated (link : LineLink δ π) {registry : Registry δ} {c : InstrumentConfig}
    {i j : Instrument δ} (assembled : assemble registry c = .ok i) (line : i.transport = link.transport)
    {ops : List Operation} {d d' : δ} (reached : run ops i d = (j, d')) {r : Request} {p : Parameter}
    {w : Setter} (kind : r.kind = .set) (declared : j.setter? r.id = some (p, w))
    {values : List (Option Json)} (checked : p.checkArgs w r.args = .ok values)
    (terminated : c.writeTermination ≠ []) :
    ∃ sent blocks, sent.Sublist w.steps ∧
      Receives link.hears link.idles (link.far d') blocks (link.far (j.execute r d').2.2) ∧
      List.Forall₂ (fun step block => ∃ id command,
        Template.render id step.template r.args = .ok command ∧
        c.encoding.encode (command ++ c.writeTermination) = .ok block ∧
        (c.Terminated block ↔ ¬c.writeTermination <:+: (command ++ c.writeTermination).dropLast) ∧
        (∀ ch ∈ c.writeTermination.head?, ch ≠ ' ' → ch ∉ step.template → KeepsOut w r.args ch →
          c.Terminated block)) sent blocks := by
  have settled : Settled i := settled_of_assemble assembled
  have make := sameMake_run ops i d
  have held : i.held = false := by
    obtain ⟨_, _, -, -, -, rfl⟩ := assemble_eq_ok assembled
    rfl
  have config : i.config = c := by
    obtain ⟨_, _, -, -, -, rfl⟩ := assemble_eq_ok assembled
    rfl
  obtain ⟨before, usage⟩ := usage_run ops (d := d) settled
  have settled' := settled.run ops (d := d)
  rw [reached] at make usage settled'
  dsimp only at make usage settled'
  obtain ⟨commands, use, rendered⟩ := usage_execute settled' r d'
  rw [line, config, held] at usage
  rw [make.transport, make.config, line, config] at use
  obtain ⟨framed, -⟩ := link.receives usage nofun
  obtain ⟨-, received⟩ := link.receives use framed
  obtain ⟨sent, hsent, each⟩ := (rendered p w kind declared).blocks (c := c)
  refine ⟨sent, _, hsent, received, each.imp fun step block => ?_⟩
  rintro ⟨id, command, hcommand, encoded⟩
  have once := InstrumentConfig.terminated_iff terminated encoded
  refine ⟨id, command, hcommand, encoded, once, fun ch hch space foreign out => once.mpr ?_⟩
  have absent : ∀ x ∈ command, x ≠ ch :=
    Template.forall_mem_render (P := fun x => x ≠ ch) space.symm (fun x hx heq => foreign (heq ▸ hx))
      (fun arg harg x hx heq => not_mem_of_keepsOut checked out arg harg (heq ▸ hx)) hcommand
  obtain ⟨rest, hrest⟩ := List.head?_eq_some_iff.mp hch
  rw [hrest]
  exact Split.ends_of_not_mem fun hmem => absent ch hmem rfl

/-- A supply on a byte stream, whose voltage is set as a whole number. -/
def adjustable : InstrumentConfig :=
  { InstrumentConfig.supply with
    transport := "tcp"
    writeTermination := "\n"
    parameters := [("volt", ⟨"voltage", none, none, none, none,
      some ⟨some (.arr [.arr [.str "int"], .null]), [⟨some "VOLT {0}", none⟩]⟩⟩)] }

/-- The registry that knows byte streams to devices in memory. -/
def Peer.registry : Registry (Option Tcp.Link × Peer) := ⟨[("tcp", ⟨[], Tcp.transport Peer.socket 1⟩)]⟩

/-- How the voltage is set. -/
def setVoltage : Setter := ⟨⟨[.str "int"], none⟩, [some .int], [.write "VOLT {0}"]⟩

def settableVoltage : Parameter := ⟨"volt", "voltage", none, "volt", none, none, some setVoltage⟩

/-- The supply as it is put together. -/
def adjustableSupply : Instrument (Option Tcp.Link × Peer) :=
  ⟨adjustable, [("volt", settableVoltage)], Tcp.transport Peer.socket 1, .seeded [], .disconnected, false, none⟩

/-- The supply and its device once the link is open. -/
def adjustableOpened : Instrument (Option Tcp.Link × Peer) × Option Tcp.Link × Peer :=
  run [.execute ⟨some "psu", connectName, .set, []⟩] adjustableSupply (none, .quiet)

theorem execute_terminated_adjustable :
    assemble Peer.registry adjustable = .ok adjustableSupply ∧
      adjustableOpened.1.setter? "volt" = some (settableVoltage, setVoltage) ∧
      settableVoltage.checkArgs setVoltage ["5"] = .ok [some (.int 5)] ∧ adjustable.writeTermination ≠ [] ∧
      (adjustableOpened.1.execute ⟨some "psu", "volt", .set, ["5"]⟩ adjustableOpened.2).2.2.2.received =
        Utf8.encode "VOLT 5\n" ∧
      ∃ blocks, Receives (Tcp.Hears Peer.socket) (Tcp.Idles Peer.socket) adjustableOpened.2.2 blocks
          (adjustableOpened.1.execute ⟨some "psu", "volt", .set, ["5"]⟩ adjustableOpened.2).2.2.2 ∧
        ∀ block ∈ blocks, adjustable.Terminated block := by
  have assembled : assemble Peer.registry adjustable = .ok adjustableSupply := rfl
  have declared : adjustableOpened.1.setter? "volt" = some (settableVoltage, setVoltage) := rfl
  have checked : settableVoltage.checkArgs setVoltage ["5"] = .ok [some (.int 5)] := rfl
  have terminated : adjustable.writeTermination ≠ [] := List.cons_ne_nil _ _
  obtain ⟨sent, blocks, hsent, received, each⟩ := execute_terminated (Tcp.line Peer.socket 1) assembled rfl
    (d := (none, .quiet)) rfl (r := ⟨some "psu", "volt", .set, ["5"]⟩) rfl declared checked terminated
  refine ⟨assembled, declared, checked, terminated, rfl, blocks, received, ?_⟩
  have out : KeepsOut setVoltage ["5"] '\n' := fun k arg hk => .inl (by
    have hmem := List.mem_singleton.mp (List.mem_of_getElem? hk)
    rw [hmem]
    decide)
  rcases List.sublist_singleton.mp hsent with rfl | rfl
  · cases each
    exact List.forall_mem_nil _
  · obtain ⟨block, _, ⟨id, command, -, -, -, once⟩, hnil, rfl⟩ := List.forall₂_cons_left_iff.mp each
    cases hnil
    exact List.forall_mem_singleton.mpr (once '\n' rfl (by decide) (by decide) out)

/-- A whole number with a line feed behind it passes the check and is sent as two lines. -/
theorem execute_terminated_twice :
    assemble Peer.registry adjustable = .ok adjustableSupply ∧
      adjustableOpened.1.state = .connected ∧
      adjustableOpened.1.setter? "volt" = some (settableVoltage, setVoltage) ∧
      (∀ step ∈ setVoltage.steps, ¬adjustable.writeTermination <:+: step.template) ∧
      settableVoltage.checkArgs setVoltage ["5\n"] = .ok [some (.int 5)] ∧
      adjustableOpened.2.2.received = [] ∧
      (adjustableOpened.1.execute ⟨some "psu", "volt", .set, ["5\n"]⟩ adjustableOpened.2).2.2.2.received =
        Utf8.encode "VOLT 5\n\n" ∧
      ¬adjustable.Terminated (Utf8.encode "VOLT 5\n\n") := by
  refine ⟨rfl, rfl, rfl, ?_, rfl, rfl, rfl, ?_⟩
  · decide +kernel
  · have encoded : adjustable.encoding.encode ("VOLT 5\n" ++ adjustable.writeTermination) =
        .ok (Utf8.encode "VOLT 5\n\n") := rfl
    have early : adjustable.writeTermination <:+: ("VOLT 5\n" ++ adjustable.writeTermination).dropLast :=
      ⟨"VOLT 5", [], rfl⟩
    exact fun once => (InstrumentConfig.terminated_iff (List.cons_ne_nil _ _) encoded).mp once early

end Instrument

end GroundStation
