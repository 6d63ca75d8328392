/-
# What becomes of the bytes that a link reads

Two kinds of calls take bytes off a link: a query takes one line with its termination, and reading what is
available takes all there is.  Both take from one buffer, and what a read brings beyond the line of a query
waits there for either.  So of the bytes that were read some have been handed out, in order, and the rest
is buffered.

There is one leak.  Reading what is available empties the buffer before it turns to the socket, and if the
socket then fails, or finds the stream at its end, what was buffered is lost.  `run_conserves` counts every
byte: in each run what was read is what the calls handed out or lost, in order, and then what is buffered,
so handed out and buffered bytes make up the whole exactly if no call lost any.  In `run_conserves_hangUp` a
device sends two lines and hangs up, and nobody sees the second.

What a socket gave is not in its state.  `Socket.recorded` is any socket with a record of it beside the
other end; the calls find no difference.
-/
import GroundStation.Link.Tcp
import GroundStation.Proofs.Link.LineBuffer

namespace GroundStation

/-- A socket with a record of what was read from it beside the state of the other end. -/
def Socket.recorded {π : Type} (s : Socket π) : Socket (π × Bytes) where
  receive := fun count p =>
    match s.receive count p.1 with
    | (.bytes content, q) => (.bytes content, q, p.2 ++ content)
    | (arrival, q) => (arrival, q, p.2)
  send := fun bytes p => ((s.send bytes p.1).1, (s.send bytes p.1).2, p.2)
  close := fun p => (s.close p.1, p.2)

namespace Tcp

/-! ## Calls -/

/-- What may be asked of a link. -/
inductive Call where
  | write (command : Text)
  /-- A query whose time lets so many reads through. -/
  | query (patience : Nat) (command : Text)
  | readAvailable

/-- What a call comes to. -/
inductive Reply where
  | written (outcome : Except LinkError Unit)
  | answered (outcome : Except LinkError Text)
  | available (outcome : Except LinkError Bytes)

/-- What a call comes to, and what it does with bytes. -/
structure Passage where
  reply : Reply
  /-- What was handed out, as it came from the device. -/
  handed : Bytes
  /-- What was buffered and is gone. -/
  lost : Bytes

section

variable {π : Type} (socket : Socket π)

/-- Sends a command and reads a line, which a query then decodes. -/
def queryLine (patience : Nat) (l : Link) (command : Text) (p : π) : Except LinkError Bytes × Link × π :=
  match write socket l command p with
  | (.error e, p) => (.error e, l, p)
  | (.ok (), p) => readLine socket patience l p

/-- What leaves the buffer with a line. -/
def takenWith (termination : Bytes) : Except LinkError Bytes → Bytes
  | .ok line => line ++ termination
  | .error _ => []

/-- One call. -/
def call (l : Link) (p : π) : Call → Reply × Link × π
  | .write command => (.written (write socket l command p).1, l, (write socket l command p).2)
  | .query patience command =>
    let (outcome, l, p) := query socket patience l command p
    (.answered outcome, l, p)
  | .readAvailable =>
    let (outcome, l, p) := readAvailable socket l p
    (.available outcome, l, p)

/-- What a call hands out. -/
def handed (l : Link) (p : π) : Call → Bytes
  | .write _ => []
  | .query patience command => takenWith l.framing.readTermination (queryLine socket patience l command p).1
  | .readAvailable =>
    match (readAvailable socket l p).1 with
    | .ok bytes => bytes
    | .error _ => []

/-- What a call loses. -/
def lost (l : Link) (p : π) : Call → Bytes
  | .write _ => []
  | .query _ _ => []
  | .readAvailable =>
    match (readAvailable socket l p).1 with
    | .ok _ => []
    | .error _ => l.buffer

/-- Calls one after another. -/
def run : List Call → Link → π → List Passage × Link × π
  | [], l, p => ([], l, p)
  | c :: rest, l, p =>
    let (reply, l', p') := call socket l p c
    let (passages, l', p') := run rest l' p'
    (⟨reply, handed socket l p c, lost socket l p c⟩ :: passages, l', p')

end

/-- What a reply tells of the bytes that were handed out with it. -/
inductive HandsOut (f : Framing) : Reply → Bytes → Prop
  | written (outcome : Except LinkError Unit) : HandsOut f (.written outcome) []
  | line (line : Bytes) : HandsOut f (.answered (.ok (f.decode line))) (line ++ f.readTermination)
  | unanswered (e : LinkError) : HandsOut f (.answered (.error e)) []
  | block (bytes : Bytes) : HandsOut f (.available (.ok bytes)) bytes
  | unavailable (e : LinkError) : HandsOut f (.available (.error e)) []

/-! ## Lines -/

section

variable {π : Type} {socket : Socket π}

theorem write_recorded (l : Link) (command : Text) (p : π) (read : Bytes) :
    write socket.recorded l command (p, read) =
      ((write socket l command p).1, (write socket l command p).2, read) := by
  rw [write, write]
  cases l.framing.frame command with
  | error e => rfl
  | ok bytes =>
      simp only [Socket.recorded]
      rcases socket.send bytes p with ⟨_ | _, q⟩ <;> rfl

/-- Until a line is found, or the attempt is given up, what is read joins the buffer. -/
theorem readLine_recorded (patience : Nat) :
    ∀ (l : Link) (p : π), ∃ content,
      (∀ read, readLine socket.recorded patience l (p, read) =
        ((readLine socket patience l p).1, (readLine socket patience l p).2.1,
          (readLine socket patience l p).2.2, read ++ content)) ∧
      (readLine socket patience l p).2.1.framing = l.framing ∧
      l.buffer ++ content = takenWith l.framing.readTermination (readLine socket patience l p).1 ++
        (readLine socket patience l p).2.1.buffer := by
  induction patience with
  | zero =>
      intro l p
      simp only [readLine]
      cases htake : LineBuffer.take? l.framing.readTermination l.buffer with
      | some cut =>
          refine ⟨[], fun read => by rw [List.append_nil], rfl, ?_⟩
          rw [List.append_nil]
          exact LineBuffer.take?_eq_some htake
      | none => exact ⟨[], fun read => by rw [List.append_nil], rfl, List.append_nil _⟩
  | succ patience ih =>
      intro l p
      simp only [readLine]
      cases htake : LineBuffer.take? l.framing.readTermination l.buffer with
      | some cut =>
          refine ⟨[], fun read => by rw [List.append_nil], rfl, ?_⟩
          rw [List.append_nil]
          exact LineBuffer.take?_eq_some htake
      | none =>
          simp only [Socket.recorded]
          rcases socket.receive chunkSize p with ⟨bytes | _ | _ | f, q⟩
          · obtain ⟨content, hrecorded, hframing, hbuffer⟩ := ih { l with buffer := l.buffer ++ bytes } q
            refine ⟨bytes ++ content, fun read => ?_, hframing, ?_⟩
            · rw [← List.append_assoc]
              exact hrecorded (read ++ bytes)
            · rw [← List.append_assoc]
              exact hbuffer
          all_goals exact ⟨[], fun read => by rw [List.append_nil], rfl, List.append_nil _⟩

/-! ## One call -/

theorem queryLine_recorded (patience : Nat) (l : Link) (command : Text) (p : π) :
    ∃ content,
      (∀ read, queryLine socket.recorded patience l command (p, read) =
        ((queryLine socket patience l command p).1, (queryLine socket patience l command p).2.1,
          (queryLine socket patience l command p).2.2, read ++ content)) ∧
      (queryLine socket patience l command p).2.1.framing = l.framing ∧
      l.buffer ++ content =
        takenWith l.framing.readTermination (queryLine socket patience l command p).1 ++
          (queryLine socket patience l command p).2.1.buffer := by
  simp only [queryLine, write_recorded]
  rcases write socket l command p with ⟨e | _, q⟩
  · exact ⟨[], fun read => by rw [List.append_nil], rfl, List.append_nil _⟩
  · exact readLine_recorded patience l q

theorem query_eq_map (patience : Nat) (l : Link) (command : Text) (p : π) :
    query socket patience l command p =
      ((queryLine socket patience l command p).1.map
          (queryLine socket patience l command p).2.1.framing.decode,
        (queryLine socket patience l command p).2) := by
  rw [query, queryLine]
  rcases write socket l command p with ⟨e | _, q⟩
  · rfl
  · dsimp only
    rcases readLine socket patience l q with ⟨e | line, l', p'⟩ <;> rfl

/-- Reading what is available leaves nothing buffered: the bytes are handed out, with those that have
arrived, or there is a failure. -/
theorem readAvailable_recorded (l : Link) (p : π) :
    (∃ content q, readAvailable socket l p = (.ok (l.buffer ++ content), { l with buffer := [] }, q) ∧
      ∀ read, readAvailable socket.recorded l (p, read) =
        (.ok (l.buffer ++ content), { l with buffer := [] }, q, read ++ content)) ∨
    ∃ e q, readAvailable socket l p = (.error e, { l with buffer := [] }, q) ∧
      ∀ read, readAvailable socket.recorded l (p, read) = (.error e, { l with buffer := [] }, q, read) := by
  simp only [readAvailable, Socket.recorded]
  rcases socket.receive chunkSize p with ⟨bytes | _ | _ | f, q⟩
  · exact .inl ⟨bytes, q, rfl, fun _ => rfl⟩
  · refine .inl ⟨[], q, ?_, fun read => ?_⟩ <;> simp only [List.append_nil]
  · exact .inr ⟨.closed, q, rfl, fun _ => rfl⟩
  · by_cases htimeout : isTimeout f = true
    · refine .inl ⟨[], q, ?_, fun read => ?_⟩ <;> simp only [if_pos htimeout, List.append_nil]
    · refine .inr ⟨.io f, q, ?_, fun read => ?_⟩ <;> simp only [if_neg htimeout]

/-- What a call does with bytes while `content` arrives. -/
structure Passes (socket : Socket π) (l : Link) (p : π) (c : Call) (content : Bytes) : Prop where
  same : (call socket l p c).2.1.framing = l.framing
  told : HandsOut l.framing (call socket l p c).1 (handed socket l p c)
  balance : l.buffer ++ content = handed socket l p c ++ lost socket l p c ++ (call socket l p c).2.1.buffer
  leak : lost socket l p c ≠ [] → ∃ e, (call socket l p c).1 = .available (.error e)

/-- A call on a recorded socket is the call on the socket, and `content` joins the record. -/
structure Recorded (socket : Socket π) (l : Link) (p : π) (c : Call) (content : Bytes) : Prop where
  call : ∀ read, call socket.recorded l (p, read) c =
    ((call socket l p c).1, (call socket l p c).2.1, (call socket l p c).2.2, read ++ content)
  handed : ∀ read, handed socket.recorded l (p, read) c = handed socket l p c
  lost : ∀ read, lost socket.recorded l (p, read) c = lost socket l p c

theorem handsOut_line (f : Framing) (outcome : Except LinkError Bytes) :
    HandsOut f (.answered (outcome.map f.decode)) (takenWith f.readTermination outcome) := by
  cases outcome with
  | error e => exact .unanswered e
  | ok line => exact .line line

/-- Every call, on every socket: what was buffered and what arrives is handed out, lost or buffered. -/
theorem exists_passes (l : Link) (p : π) (c : Call) :
    ∃ content, Recorded socket l p c content ∧ Passes socket l p c content := by
  cases c with
  | write command =>
      refine ⟨[], ⟨fun read => ?_, fun _ => rfl, fun _ => rfl⟩,
        ⟨rfl, .written _, List.append_nil _, fun h => absurd rfl h⟩⟩
      rw [call, write_recorded, List.append_nil]
      rfl
  | query patience command =>
      obtain ⟨content, hrecorded, hframing, hbuffer⟩ :=
        @queryLine_recorded π socket patience l command p
      refine ⟨content, ⟨fun read => ?_, fun read => ?_, fun _ => rfl⟩, ⟨?_, ?_, ?_, fun h => absurd rfl h⟩⟩
      · simp only [call, query_eq_map, hrecorded]
      · rw [handed, hrecorded, handed]
      · rw [call, query_eq_map]
        exact hframing
      · rw [call, query_eq_map, hframing]
        exact handsOut_line _ _
      · rw [call, query_eq_map, handed, lost, List.append_nil]
        exact hbuffer
  | readAvailable =>
      rcases @readAvailable_recorded π socket l p with
        ⟨content, q, hread, hrecorded⟩ | ⟨e, q, hread, hrecorded⟩
      · refine ⟨content, ⟨fun read => ?_, fun read => ?_, fun read => ?_⟩, ⟨?_, ?_, ?_, ?_⟩⟩
        all_goals simp only [call, handed, lost, hread, hrecorded]
        · exact .block _
        · rw [List.append_nil, List.append_nil]
        · exact fun h => absurd rfl h
      · refine ⟨[], ⟨fun read => ?_, fun read => ?_, fun read => ?_⟩, ⟨?_, ?_, ?_, ?_⟩⟩
        all_goals simp only [call, handed, lost, hread, hrecorded, List.append_nil]
        · exact .unavailable e
        · exact (List.nil_append _).symm
        · exact fun _ => ⟨e, rfl⟩

/-! ## Runs -/

/-- Nothing is missing exactly if nothing is lost. -/
theorem flatMap_handed_eq_iff :
    ∀ passages : List Passage,
      (passages.flatMap fun x => x.handed ++ x.lost) = passages.flatMap Passage.handed ↔
        ∀ x ∈ passages, x.lost = [] := by
  have hle : ∀ passages : List Passage, (passages.flatMap Passage.handed).length ≤
      (passages.flatMap fun x => x.handed ++ x.lost).length := by
    intro passages
    induction passages with
    | nil => exact Nat.le_refl 0
    | cons x rest ih =>
        simp only [List.flatMap_cons, List.length_append]
        omega
  intro passages
  induction passages with
  | nil => exact iff_of_true rfl nofun
  | cons x rest ih =>
      rw [List.flatMap_cons, List.flatMap_cons, List.append_assoc, List.append_cancel_left_eq,
        List.forall_mem_cons, ← ih]
      constructor
      · intro h
        have hnone : x.lost = [] := by
          refine List.length_eq_zero_iff.mp ?_
          have hlength := congrArg List.length h
          have hrest := hle rest
          rw [List.length_append] at hlength
          omega
        rw [hnone] at h
        exact ⟨hnone, h⟩
      · rintro ⟨hnone, hrest⟩
        rw [hnone, hrest]
        rfl

/-- What a run does with bytes. -/
theorem run_recorded (calls : List Call) :
    ∀ (l : Link) (p : π) (read : Bytes), ∃ content,
      run socket.recorded calls l (p, read) =
        ((run socket calls l p).1, (run socket calls l p).2.1, (run socket calls l p).2.2, read ++ content) ∧
      l.buffer ++ content = ((run socket calls l p).1.flatMap fun x => x.handed ++ x.lost) ++
        (run socket calls l p).2.1.buffer ∧
      ∀ x ∈ (run socket calls l p).1, HandsOut l.framing x.reply x.handed ∧
        (x.lost ≠ [] → ∃ e, x.reply = .available (.error e)) := by
  induction calls with
  | nil => exact fun l p read => ⟨[], by rw [List.append_nil]; rfl, List.append_nil _, nofun⟩
  | cons c rest ih =>
      intro l p read
      obtain ⟨content, recorded, passes⟩ := @exists_passes π socket l p c
      obtain ⟨more, hrun, hbalance, htold⟩ :=
        ih (call socket l p c).2.1 (call socket l p c).2.2 (read ++ content)
      refine ⟨content ++ more, ?_, ?_, ?_⟩
      · rw [run, recorded.call, recorded.handed, recorded.lost]
        dsimp only
        rw [hrun, List.append_assoc]
        rfl
      · rw [← List.append_assoc, passes.balance, List.append_assoc, hbalance, ← List.append_assoc]
        rfl
      · rw [passes.same] at htold
        exact List.forall_mem_cons.mpr ⟨⟨passes.told, passes.leak⟩, htold⟩

/-- For every socket, every link and every sequence of calls, and so behind each call: what was read, with
what was buffered at first, is what the calls handed out or lost, in order, and then what is buffered.  So
what was handed out and what is buffered make up all of it exactly if no call lost any; only reading what is
available loses some, when it fails.  The record is that of the same run on the recorded socket. -/
theorem run_conserves (socket : Socket π) (calls : List Call) (l : Link) (p : π) :
    ∃ passages l' p' read,
      run socket calls l p = (passages, l', p') ∧
      run socket.recorded calls l (p, l.buffer) = (passages, l', p', read) ∧
      read = (passages.flatMap fun x => x.handed ++ x.lost) ++ l'.buffer ∧
      (read = passages.flatMap Passage.handed ++ l'.buffer ↔ ∀ x ∈ passages, x.lost = []) ∧
      ∀ x ∈ passages, HandsOut l.framing x.reply x.handed ∧
        (x.lost ≠ [] → ∃ e, x.reply = .available (.error e)) := by
  obtain ⟨content, hrecorded, hbalance, htold⟩ := @run_recorded π socket calls l p l.buffer
  refine ⟨_, _, _, _, rfl, hrecorded, hbalance, ?_, htold⟩
  rw [hbalance, List.append_cancel_right_eq]
  exact flatMap_handed_eq_iff _

end

/-- The second line of a device that hangs up is read and then neither handed out nor buffered. -/
theorem run_conserves_hangUp :
    let l : Link := ⟨⟨.ascii, [0x0A], [0x0A]⟩, []⟩
    let device : Peer := ⟨[0x31, 0x0A, 0x32, 0x0A], true, [], false⟩
    ∃ passages p' read,
      run Peer.socket.recorded [.query 1 "a", .readAvailable] l (device, l.buffer) = (passages, l, p', read) ∧
      passages =
        [⟨.answered (.ok "1"), [0x31, 0x0A], []⟩, ⟨.available (.error .closed), [], [0x32, 0x0A]⟩] ∧
      read = [0x31, 0x0A, 0x32, 0x0A] ∧
      read ≠ passages.flatMap Passage.handed ++ l.buffer :=
  ⟨_, _, _, rfl, rfl, rfl, by decide⟩

end Tcp

end GroundStation
