/-
# What a device is told on a link of lines

Three transports send commands as lines: over a byte stream, in datagrams and to a simulator.  Each tells its
far end no more than the blocks of the commands that it is given, a block being the command as the framing
of the link lays it out, and nothing where the command cannot be encoded.  `LineLink` says so of a
transport, operation by operation, and the three are links of this kind (`Tcp.line`, `Udp.line`,
`Simulation.line`).

What is done with an instrument reaches its link as disciplined use, so along all of it the far end is told
the blocks of the commands that were sent, in order and nothing else (`LineLink.receives`).
-/
import GroundStation.Link.Simulation
import GroundStation.Link.Udp
import GroundStation.Proofs.Instrument.Usage

namespace GroundStation

/-! ## Far ends -/

/-- What the far end of a link goes through: these blocks reach it, in order, and otherwise it is left to
itself. -/
inductive Receives {π : Type} (hears : Bytes → π → π → Prop) (idles : π → π → Prop) :
    π → List Bytes → π → Prop
  | done {p : π} : Receives hears idles p [] p
  | heard {p p' p'' : π} {block : Bytes} {blocks : List Bytes} : hears block p p' →
      Receives hears idles p' blocks p'' → Receives hears idles p (block :: blocks) p''
  | idled {p p' p'' : π} {blocks : List Bytes} : idles p p' →
      Receives hears idles p' blocks p'' → Receives hears idles p blocks p''

theorem Receives.trans {π : Type} {hears : Bytes → π → π → Prop} {idles : π → π → Prop} {p p' p'' : π}
    {blocks more : List Bytes} (h : Receives hears idles p blocks p') (h' : Receives hears idles p' more p'') :
    Receives hears idles p (blocks ++ more) p'' := by
  induction h with
  | done => exact h'
  | heard hears _ ih => exact .heard hears (ih h')
  | idled idles _ ih => exact .idled idles (ih h')

/-- What is sent of a command: its bytes in one block, or nothing where it cannot be encoded. -/
def Framing.blocks (f : Framing) (command : Text) : List Bytes :=
  match f.frame command with
  | .ok block => [block]
  | .error _ => []

/-- What is sent of a command to an instrument. -/
def InstrumentConfig.blocks (c : InstrumentConfig) (command : Text) : List Bytes :=
  match Framing.ofConfig c with
  | .ok f => f.blocks command
  | .error _ => []

theorem InstrumentConfig.blocks_of_ofConfig {c : InstrumentConfig} {f : Framing}
    (framed : Framing.ofConfig c = .ok f) (command : Text) : c.blocks command = f.blocks command := by
  rw [blocks, framed]

/-- A transport that sends commands as lines, to a far end of state `π`. -/
structure LineLink (δ π : Type) where
  transport : Transport δ
  far : δ → π
  /-- How a block reaches the far end. -/
  hears : Bytes → π → π → Prop
  /-- What else may happen to the far end. -/
  idles : π → π → Prop
  /-- The framing of the link that is open. -/
  framing? : δ → Option Framing
  connect : ∀ {c d d'}, transport.connect c d = (.ok (), d') →
    (∃ f, Framing.ofConfig c = .ok f ∧ framing? d' = some f) ∧ far d' = far d
  refuse : ∀ {c d d' e}, transport.connect c d = (.error e, d') → far d' = far d
  write : ∀ {d f} c command, framing? d = some f →
    framing? (transport.write c command d).2 = some f ∧
    Receives hears idles (far d) (f.blocks command) (far (transport.write c command d).2)
  query : ∀ {d f} c command, framing? d = some f →
    framing? (transport.query c command d).2 = some f ∧
    Receives hears idles (far d) (f.blocks command) (far (transport.query c command d).2)
  read : ∀ c d, framing? (transport.readAvailable c d).2 = framing? d ∧
    Receives hears idles (far d) [] (far (transport.readAvailable c d).2)
  close : ∀ c d, Receives hears idles (far d) [] (far (transport.close c d))

namespace LineLink

variable {δ π : Type} (link : LineLink δ π) {c : InstrumentConfig} {held held' : Bool} {d d' : δ}
  {commands : List Text}

/-- The link, if it is held, is laid out as the configuration says. -/
def Framed (c : InstrumentConfig) (held : Bool) (d : δ) : Prop :=
  held = true → ∃ f, Framing.ofConfig c = .ok f ∧ link.framing? d = some f

/-- Along disciplined use the far end is told the blocks of the commands, and the link keeps its framing. -/
theorem receives (usage : link.transport.Usage c held d commands held' d') (framed : link.Framed c held d) :
    link.Framed c held' d' ∧
      Receives link.hears link.idles (link.far d) (commands.flatMap c.blocks) (link.far d') := by
  induction usage with
  | idle => exact ⟨framed, .done⟩
  | opened hconnect _ ih =>
    obtain ⟨framed, far⟩ := link.connect hconnect
    rw [← far]
    exact ih fun _ => framed
  | refused hconnect _ ih =>
    rw [← link.refuse hconnect]
    exact ih nofun
  | wrote command _ ih =>
    obtain ⟨f, hconfig, hopen⟩ := framed rfl
    obtain ⟨kept, received⟩ := link.write c command hopen
    obtain ⟨framed', more⟩ := ih fun _ => ⟨f, hconfig, kept⟩
    rw [List.flatMap_cons, c.blocks_of_ofConfig hconfig command]
    exact ⟨framed', received.trans more⟩
  | queried command _ ih =>
    obtain ⟨f, hconfig, hopen⟩ := framed rfl
    obtain ⟨kept, received⟩ := link.query c command hopen
    obtain ⟨framed', more⟩ := ih fun _ => ⟨f, hconfig, kept⟩
    rw [List.flatMap_cons, c.blocks_of_ofConfig hconfig command]
    exact ⟨framed', received.trans more⟩
  | @read d _ _ _ _ ih =>
    obtain ⟨kept, received⟩ := link.read c d
    obtain ⟨framed', more⟩ := ih fun held => kept ▸ framed held
    exact ⟨framed', received.trans more⟩
  | @closed d _ _ _ _ ih =>
    obtain ⟨framed', more⟩ := ih nofun
    exact ⟨framed', (link.close c d).trans more⟩

end LineLink

/-! ## The three links -/

namespace Framing

/-- A command that cannot be encoded is not sent. -/
theorem blocks_of_error {f : Framing} {command : Text} {e : LinkError} (h : f.frame command = .error e) :
    f.blocks command = [] := by
  rw [blocks, h]

theorem blocks_of_ok {f : Framing} {command : Text} {block : Bytes} (h : f.frame command = .ok block) :
    f.blocks command = [block] := by
  rw [blocks, h]

end Framing

namespace Tcp

variable {π : Type} (socket : Socket π)

/-- A block is sent. -/
def Hears (block : Bytes) (p p' : π) : Prop := (socket.send block p).2 = p'

/-- Something is read, or the stream is closed. -/
def Idles (p p' : π) : Prop := (∃ count, (socket.receive count p).2 = p') ∨ socket.close p = p'

theorem receives_write (l : Link) (command : Text) (p : π) :
    Receives (Hears socket) (Idles socket) p (l.framing.blocks command) (write socket l command p).2 := by
  unfold write
  split
  · next e hframe =>
    rw [Framing.blocks_of_error hframe]
    exact .done
  · next block hframe =>
    have hears : Hears socket block p (socket.send block p).2 := rfl
    rw [Framing.blocks_of_ok hframe]
    split <;> next heq => rw [heq] at hears; exact .heard hears .done

theorem receives_readLine (patience : Nat) : ∀ (l : Link) (p : π),
    (readLine socket patience l p).2.1.framing = l.framing ∧
      Receives (Hears socket) (Idles socket) p [] (readLine socket patience l p).2.2 := by
  induction patience with
  | zero =>
    intro l p
    unfold readLine
    split <;> exact ⟨rfl, .done⟩
  | succ patience ih =>
    intro l p
    have idles : Idles socket p (socket.receive chunkSize p).2 := .inl ⟨chunkSize, rfl⟩
    unfold readLine
    split
    · exact ⟨rfl, .done⟩
    · dsimp only
      split <;> next heq => rw [heq] at idles; first
        | exact ⟨rfl, .idled idles .done⟩
        | exact (ih _ _).imp_right (.idled idles)

theorem receives_query (patience : Nat) (l : Link) (command : Text) (p : π) :
    (query socket patience l command p).2.1.framing = l.framing ∧
      Receives (Hears socket) (Idles socket) p (l.framing.blocks command)
        (query socket patience l command p).2.2 := by
  have sent := receives_write socket l command p
  unfold query
  split
  · next heq =>
    rw [heq] at sent
    exact ⟨rfl, sent⟩
  · next q heq =>
    rw [heq] at sent
    obtain ⟨framing, received⟩ := receives_readLine socket patience l q
    have both := sent.trans received
    rw [List.append_nil] at both
    split <;> next heq => rw [heq] at framing both; exact ⟨framing, both⟩

theorem receives_readAvailable (l : Link) (p : π) :
    (readAvailable socket l p).2.1.framing = l.framing ∧
      Receives (Hears socket) (Idles socket) p [] (readAvailable socket l p).2.2 := by
  have idles : Idles socket p (socket.receive chunkSize p).2 := .inl ⟨chunkSize, rfl⟩
  unfold readAvailable
  split <;> next heq =>
    rw [heq] at idles
    first
      | exact ⟨rfl, .idled idles .done⟩
      | split <;> exact ⟨rfl, .idled idles .done⟩

theorem framing_of_opened {c : InstrumentConfig} {l : Link} (h : opened c = .ok l) :
    Framing.ofConfig c = .ok l.framing := by
  simp only [opened, bind, Except.bind, pure, Except.pure] at h
  split at h
  · cases h
  · split at h
    · cases h
    · next hframing =>
      cases h
      exact hframing

/-- The link over a byte stream. -/
def line (patience : Nat) : LineLink (Option Link × π) π where
  transport := transport socket patience
  far := Prod.snd
  hears := Hears socket
  idles := Idles socket
  framing? := fun d => d.1.map Link.framing
  connect := by
    rintro c ⟨_, p⟩ d' h
    simp only [transport] at h
    split at h
    · next l hopened =>
      cases h
      exact ⟨⟨l.framing, framing_of_opened hopened, rfl⟩, rfl⟩
    · cases h
  refuse := by
    rintro c ⟨_, p⟩ d' e h
    simp only [transport] at h
    split at h <;> cases h
    rfl
  write := by
    rintro ⟨l, p⟩ f c command hopen
    obtain ⟨l, rfl, rfl⟩ := Option.map_eq_some_iff.mp hopen
    exact ⟨rfl, receives_write socket l command p⟩
  query := by
    rintro ⟨l, p⟩ f c command hopen
    obtain ⟨l, rfl, rfl⟩ := Option.map_eq_some_iff.mp hopen
    obtain ⟨framing, received⟩ := receives_query socket patience l command p
    exact ⟨congrArg some framing, received⟩
  read := by
    rintro c ⟨_ | l, p⟩
    · exact ⟨rfl, .done⟩
    · obtain ⟨framing, received⟩ := receives_readAvailable socket l p
      exact ⟨congrArg some framing, received⟩
  close := fun _ _ => .idled (.inr rfl) .done

end Tcp

namespace Udp

/-- The device reads a datagram. -/
def Hears (datagram : Bytes) (r r' : Responder) : Prop := r.take datagram = r'

/-- What it has sent is read. -/
def Idles (r r' : Responder) : Prop := ∃ queue, { r with queue } = r'

theorem receives_write (f : Framing) (command : Text) (r : Responder) :
    Receives Hears Idles r (f.blocks command) (write f command r).2 := by
  unfold write
  split
  · next e hframe =>
    rw [Framing.blocks_of_error hframe]
    exact .done
  · next block hframe =>
    rw [Framing.blocks_of_ok hframe]
    exact .heard rfl .done

theorem receives_query (f : Framing) (command : Text) (r : Responder) :
    Receives Hears Idles r (f.blocks command) (query f command r).2 := by
  have sent := receives_write f command r
  unfold query
  split <;> next heq =>
    rw [heq] at sent
    first
      | exact sent
      | split
        · exact sent
        · next _ rest _ =>
          have both := sent.trans (.idled ⟨rest, rfl⟩ .done)
          rwa [List.append_nil] at both

/-- The link of datagrams. -/
def line : LineLink (Option Framing × Responder) Responder where
  transport := transport
  far := Prod.snd
  hears := Hears
  idles := Idles
  framing? := Prod.fst
  connect := by
    rintro c ⟨_, r⟩ d' h
    simp only [transport] at h
    split at h
    · next f hopened =>
      cases h
      simp only [opened, bind, Except.bind] at hopened
      split at hopened
      · cases hopened
      · exact ⟨⟨f, hopened, rfl⟩, rfl⟩
    · cases h
  refuse := by
    rintro c ⟨_, r⟩ d' e h
    simp only [transport] at h
    split at h <;> cases h
    rfl
  write := by
    rintro ⟨_, r⟩ f c command rfl
    exact ⟨rfl, receives_write f command r⟩
  query := by
    rintro ⟨_, r⟩ f c command rfl
    exact ⟨rfl, receives_query f command r⟩
  read := fun _ _ => ⟨rfl, .idled ⟨[], rfl⟩ .done⟩
  close := fun _ _ => .done

end Udp

namespace Simulation

/-- The program is given a block; one that has left takes none. -/
def Hears (block : Bytes) (s s' : Simulator) : Prop :=
  s.take block = .ok s' ∨ (∃ e, s.take block = .error e) ∧ s' = s

/-- What it has written is read, or it is ended. -/
def Idles (s s' : Simulator) : Prop := ∃ output running, { s with output, running } = s'

theorem receives_write (l : Link) (command : Text) (s : Simulator) :
    Receives Hears Idles s (l.framing.blocks command) (write l command s).2 := by
  unfold write
  split
  · next e hframe =>
    rw [Framing.blocks_of_error hframe]
    exact .done
  · next block hframe =>
    rw [Framing.blocks_of_ok hframe]
    split
    · next e hleft => exact .heard (.inr ⟨⟨e, hleft⟩, rfl⟩) .done
    · next htaken => exact .heard (.inl htaken) .done

theorem receives_readLine (l : Link) (s : Simulator) :
    (readLine l s).2.1.framing = l.framing ∧ Receives Hears Idles s [] (readLine l s).2.2 := by
  unfold readLine
  dsimp only
  split
  · exact ⟨rfl, .done⟩
  · split <;> exact ⟨rfl, .idled ⟨[], s.running, rfl⟩ .done⟩

theorem receives_query (l : Link) (command : Text) (s : Simulator) :
    (query l command s).2.1.framing = l.framing ∧
      Receives Hears Idles s (l.framing.blocks command) (query l command s).2.2 := by
  have sent := receives_write l command s
  unfold query
  split
  · next heq =>
    rw [heq] at sent
    exact ⟨rfl, sent⟩
  · next heq =>
    rw [heq] at sent
    obtain ⟨framing, read⟩ := receives_readLine l _
    have both := sent.trans read
    rw [List.append_nil] at both
    exact ⟨framing, both⟩

theorem receives_readAvailable (l : Link) (s : Simulator) :
    (readAvailable l s).2.1.framing = l.framing ∧ Receives Hears Idles s [] (readAvailable l s).2.2 := by
  unfold readAvailable
  dsimp only
  split <;> exact ⟨rfl, .idled ⟨[], s.running, rfl⟩ .done⟩

theorem framing_of_opened {isProgram : Text → Bool} {c : InstrumentConfig} {l : Link}
    (h : opened isProgram c = .ok l) : Framing.ofConfig c = .ok l.framing := by
  unfold opened at h
  split at h
  · cases h
  · split at h
    · cases h
    · split at h
      · cases hframing : Framing.ofConfig c with
        | error e =>
          rw [hframing] at h
          cases h
        | ok f =>
          rw [hframing] at h
          cases h
          rfl
      · cases h

/-- The link to a simulator. -/
def line (isProgram : Text → Bool) : LineLink (Option Link × Simulator) Simulator where
  transport := transport isProgram
  far := Prod.snd
  hears := Hears
  idles := Idles
  framing? := fun d => d.1.map Link.framing
  connect := by
    rintro c ⟨_, s⟩ d' h
    simp only [transport] at h
    split at h
    · next l hopened =>
      cases h
      exact ⟨⟨l.framing, framing_of_opened hopened, rfl⟩, rfl⟩
    · cases h
  refuse := by
    rintro c ⟨_, s⟩ d' e h
    simp only [transport] at h
    split at h <;> cases h
    rfl
  write := by
    rintro ⟨l, s⟩ f c command hopen
    obtain ⟨l, rfl, rfl⟩ := Option.map_eq_some_iff.mp hopen
    exact ⟨rfl, receives_write l command s⟩
  query := by
    rintro ⟨l, s⟩ f c command hopen
    obtain ⟨l, rfl, rfl⟩ := Option.map_eq_some_iff.mp hopen
    obtain ⟨framing, received⟩ := receives_query l command s
    exact ⟨congrArg some framing, received⟩
  read := by
    rintro c ⟨_ | l, s⟩
    · exact ⟨rfl, .done⟩
    · obtain ⟨framing, received⟩ := receives_readAvailable l s
      exact ⟨congrArg some framing, received⟩
  close := fun _ d => .idled ⟨d.2.output, false, rfl⟩ .done

end Simulation

end GroundStation
