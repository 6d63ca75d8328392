/-
# Replies find their commands

An initiator sends commands to a target one after another.  The target answers a command at most once, at
any time later and in any order, or never; its frames arrive in fragments, and any read may be interrupted,
or find nothing, a closed stream or a failure.  An exchange that succeeds still yields the reply to its own command and to
no other, and after every exchange the buffer begins at a frame boundary (`transact_correlation`).

`Target` is such a peer.  It acts by a plan: before each read it builds replies and then lets the read find
something.  The plan is any list of such moves, so it stands for everything that a peer may do in the
course of a run.

Two facts carry the proof, and every step keeps them (`Conversing`).  The stream is aligned: buffer and
unread bytes are the frames of the latest replies.  And ids count commands: the n-th command bears the id
n + 1, as long as there are fewer commands than ids, so that an id tells which command a reply answers.
-/
import GroundStation.Proofs.Rmap.Stream

namespace GroundStation

namespace Rmap

/-! ## A target with a plan -/

/-- A reply to be built: to the command of an index, with a status and data. -/
structure Answer where
  command : Nat
  status : UInt8
  data : Bytes
  deriving DecidableEq

/-- What a read of the stream is to find. -/
inductive Finding where
  /-- So many bytes and one more, or as many as there are. -/
  | fragment (size : Nat)
  | silence
  | hangUp
  | failure (cause : IoFailure)
  deriving DecidableEq

/-- What a target does until a read, and what the read finds. -/
structure Move where
  answers : List Answer
  finding : Finding
  deriving DecidableEq

/-- A target and its end of the stream. -/
structure Target where
  /-- The packets of the commands, in the order in which they came. -/
  commands : List Bytes
  /-- The packets of the replies built, each with the index of its command, in the order in which they
  were sent. -/
  replies : List (Nat × Bytes)
  /-- What has been sent and not been read. -/
  unread : Bytes
  plan : List Move
  deriving DecidableEq

namespace Target

/-- A target that nothing has happened to. -/
def planned (plan : List Move) : Target := ⟨[], [], [], plan⟩

/-- Builds and sends a reply, if the command has come, decodes and has not been answered. -/
def answer (t : Target) (a : Answer) : Target :=
  match (t.commands[a.command]?.bind Packet.decode).bind fun c => encodeReply c a.status a.data with
  | none => t
  | some reply =>
    if a.command ∈ t.replies.map Prod.fst then t
    else { t with replies := t.replies ++ [(a.command, reply)], unread := t.unread ++ frame reply }

/-- Lets a read find something; nothing is found where nothing is left. -/
def deliver (count : Nat) (t : Target) : Finding → Arrival × Target
  | .fragment size =>
    if t.unread.isEmpty then (.silence, t)
    else (.bytes (t.unread.take (min (size + 1) count)),
      { t with unread := t.unread.drop (min (size + 1) count) })
  | .silence => (.silence, t)
  | .hangUp => (.hangUp, t)
  | .failure cause => (.failure cause, t)

/-- Reading from a target: it makes its next move first.  When the plan is over nothing comes. -/
def receive (count : Nat) (t : Target) : Arrival × Target :=
  match t.plan with
  | [] => (.silence, t)
  | move :: rest => deliver count (move.answers.foldl answer { t with plan := rest }) move.finding

/-- Writing a frame to a target, which takes the packet behind the length. -/
def send (bytes : Bytes) (t : Target) : Except IoFailure Unit × Target :=
  (.ok (), { t with commands := t.commands ++ [bytes.drop 4] })

/-- The socket of a target. -/
def socket : Socket Target := ⟨receive, send, id⟩

/-- A reply that was built from the command of its index. -/
def Answered (t : Target) (e : Nat × Bytes) : Prop :=
  ∃ packet command status data, t.commands[e.1]? = some packet ∧
    Packet.decode packet = some command ∧ encodeReply command status data = some e.2

/-- What was built in reply to the command of an index decodes as `reply`. -/
def Replied (t : Target) (index : Nat) (reply : Packet) : Prop :=
  ∃ packet, (index, packet) ∈ t.replies ∧ t.Answered (index, packet) ∧
    Packet.decode packet = some reply

theorem Answered.fit {t : Target} {e : Nat × Bytes} (h : t.Answered e) :
    e.2.length ≤ maxFrameLength := by
  obtain ⟨_, _, _, _, -, -, hencode⟩ := h
  exact (decode_encodeReply hencode).1

theorem Answered.mono {t t' : Target} {e : Nat × Bytes} (h : t.Answered e)
    (known : ∀ (n : Nat) (packet : Bytes), t.commands[n]? = some packet → t'.commands[n]? = some packet) :
    t'.Answered e := by
  obtain ⟨packet, command, status, data, hpacket, hcommand, hencode⟩ := h
  exact ⟨packet, command, status, data, known _ _ hpacket, hcommand, hencode⟩

/-! ## How a target moves -/

/-- From `t` to `t'` a target has sent the replies `new`, and `content` has been read. -/
structure Grows (t t' : Target) (content : Bytes) (new : List (Nat × Bytes)) : Prop where
  commands : t'.commands = t.commands
  replies : t'.replies = t.replies ++ new
  stream : content ++ t'.unread = t.unread ++ (new.map Prod.snd).flatMap frame
  answered : ∀ e ∈ new, t.Answered e

namespace Grows

theorem refl (t : Target) : Grows t t [] [] :=
  ⟨rfl, (List.append_nil _).symm, (List.append_nil _).symm, nofun⟩

theorem trans {t t' t'' : Target} {content : Bytes} {new more : List (Nat × Bytes)}
    (h : Grows t t' [] new) (h' : Grows t' t'' content more) : Grows t t'' content (new ++ more) where
  commands := h'.commands.trans h.commands
  replies := by rw [h'.replies, h.replies, List.append_assoc]
  stream := by
    have hstream : t'.unread = t.unread ++ (new.map Prod.snd).flatMap frame := h.stream
    rw [h'.stream, hstream, List.map_append, List.flatMap_append, List.append_assoc]
  answered := by
    intro e he
    rcases List.mem_append.mp he with hnew | hmore
    · exact h.answered e hnew
    · exact (h'.answered e hmore).mono fun _ _ hpacket => h.commands ▸ hpacket

end Grows

theorem grows_answer (t : Target) (a : Answer) : ∃ new, Grows t (t.answer a) [] new := by
  unfold answer
  split
  · exact ⟨[], .refl t⟩
  · next reply hreply =>
    split
    · exact ⟨[], .refl t⟩
    · refine ⟨[(a.command, reply)], rfl, rfl, ?_, ?_⟩
      · rw [List.map_singleton, List.flatMap_singleton, List.nil_append]
      · intro e he
        rw [List.mem_singleton.mp he]
        obtain ⟨command, hcommand, hencode⟩ := Option.bind_eq_some_iff.mp hreply
        obtain ⟨packet, hpacket, hdecode⟩ := Option.bind_eq_some_iff.mp hcommand
        exact ⟨packet, command, a.status, a.data, hpacket, hdecode, hencode⟩

theorem grows_answers :
    ∀ (answers : List Answer) (t : Target), ∃ new, Grows t (answers.foldl answer t) [] new
  | [], t => ⟨[], .refl t⟩
  | a :: rest, t => by
      obtain ⟨new, hfirst⟩ := grows_answer t a
      obtain ⟨more, hrest⟩ := grows_answers rest (t.answer a)
      exact ⟨new ++ more, hfirst.trans hrest⟩

end Target

/-- The bytes that a read has found. -/
def content : Arrival → Bytes
  | .bytes bytes => bytes
  | .silence => []
  | .hangUp => []
  | .failure _ => []

namespace Target

theorem grows_deliver (count : Nat) (t : Target) (finding : Finding) :
    Grows t (t.deliver count finding).2 (content (t.deliver count finding).1) [] := by
  cases finding with
  | fragment size =>
      rw [deliver]
      split
      · exact .refl t
      · refine ⟨rfl, (List.append_nil _).symm, ?_, nofun⟩
        show _ ++ t.unread.drop (min (size + 1) count) = t.unread ++ []
        rw [List.append_nil]
        exact List.take_append_drop _ _
  | silence => exact .refl t
  | hangUp => exact .refl t
  | failure cause => exact .refl t

theorem grows_receive (count : Nat) (t : Target) :
    ∃ new, Grows t (t.receive count).2 (content (t.receive count).1) new := by
  rw [receive]
  split
  · exact ⟨[], .refl t⟩
  · next move rest _ =>
    obtain ⟨new, hanswers⟩ := grows_answers move.answers { t with plan := rest }
    have hplan : Grows t { t with plan := rest } [] [] :=
      ⟨rfl, (List.append_nil _).symm, (List.append_nil _).symm, nofun⟩
    exact ⟨_, (hplan.trans hanswers).trans (grows_deliver count _ move.finding)⟩

end Target

/-! ## What an exchange keeps -/

/-- Ids count the commands, replies answer them, and the stream is aligned. -/
structure Conversing (l : Link) (t : Target) : Prop where
  next : l.codec.nextId.toNat = t.commands.length + 1
  numbered : ∀ n packet, t.commands[n]? = some packet →
    ∃ p, Packet.decode packet = some p ∧ p.transactionId.toNat = n + 1
  answered : ∀ e ∈ t.replies, t.Answered e
  aligned : ∃ taken later, t.replies = taken ++ later ∧
    Aligned l.buffer t.unread (later.map Prod.snd)

namespace Conversing

variable {l : Link} {t t' : Target}

/-- The id of a reply tells the command that it answers. -/
theorem transactionId (h : Conversing l t) {e : Nat × Bytes} (he : e ∈ t.replies) {reply : Packet}
    (hdecode : Packet.decode e.2 = some reply) : reply.transactionId.toNat = e.1 + 1 := by
  obtain ⟨packet, command, status, data, hpacket, hcommand, hencode⟩ := h.answered e he
  obtain ⟨-, p, hp, hid⟩ := decode_encodeReply hencode
  obtain ⟨c, hc, hnumber⟩ := h.numbered e.1 packet hpacket
  cases hp.symm.trans hdecode
  cases hc.symm.trans hcommand
  rw [hid, hnumber]

/-- What is read goes to the end of the buffer. -/
theorem receive (h : Conversing l t) {content : Bytes} {new : List (Nat × Bytes)}
    (grows : Target.Grows t t' content new) :
    Conversing { l with buffer := l.buffer ++ content } t' where
  next := by rw [grows.commands]; exact h.next
  numbered := by rw [grows.commands]; exact h.numbered
  answered := by
    intro e he
    rw [grows.replies] at he
    have hanswered : t.Answered e := (List.mem_append.mp he).elim (h.answered e) (grows.answered e)
    exact hanswered.mono fun _ _ hpacket => grows.commands.symm ▸ hpacket
  aligned := by
    obtain ⟨taken, later, hreplies, haligned⟩ := h.aligned
    refine ⟨taken, later ++ new, ?_, ?_⟩
    · rw [grows.replies, hreplies, List.append_assoc]
    · rw [List.map_append]
      refine haligned.arrive ?_ grows.stream
      intro packet hpacket
      obtain ⟨e, he, rfl⟩ := List.mem_map.mp hpacket
      exact (grows.answered e he).fit

/-- A search for a reply leaves the conversation sound, and accepts what a reply decodes as. -/
theorem scan (h : Conversing l t) (id : UInt16) (kind : PacketKind) :
    Conversing { l with buffer := (Rmap.scan id kind l.buffer).rest } t ∧
      ∀ reply rest, Rmap.scan id kind l.buffer = .accepted reply rest →
        ∃ e ∈ t.replies, Packet.decode e.2 = some reply ∧ reply.transactionId = id := by
  obtain ⟨taken, later, hreplies, haligned⟩ := h.aligned
  obtain ⟨⟨more, rest, hmap, haligned'⟩, haccepted⟩ := haligned.scan id kind
  obtain ⟨passed, waiting, rfl, rfl, rfl⟩ := List.map_eq_append_iff.mp hmap
  refine ⟨⟨h.next, h.numbered, h.answered, taken ++ passed, waiting, ?_, haligned'⟩, ?_⟩
  · rw [hreplies, List.append_assoc]
  · intro reply rest hscan
    obtain ⟨packet, hpacket, hdecode⟩ := haccepted reply rest hscan
    obtain ⟨e, he, rfl⟩ := List.mem_map.mp hpacket
    refine ⟨e, ?_, hdecode⟩
    rw [hreplies]
    exact List.mem_append_right _ he

/-- To wait for a reply keeps the conversation, however it ends. -/
theorem awaitReply (id : UInt16) (kind : PacketKind) :
    ∀ (patience : Nat) {l : Link} {t : Target}, Conversing l t →
      Conversing (Rmap.awaitReply Target.socket id kind patience l t).2.1
        (Rmap.awaitReply Target.socket id kind patience l t).2.2 ∧
      (Rmap.awaitReply Target.socket id kind patience l t).2.2.commands = t.commands ∧
      ∀ reply, (Rmap.awaitReply Target.socket id kind patience l t).1 = .ok reply →
        ∃ e ∈ (Rmap.awaitReply Target.socket id kind patience l t).2.2.replies,
          Packet.decode e.2 = some reply ∧ reply.transactionId = id
  | patience, l, t, h => by
      obtain ⟨hscan, haccepted⟩ := h.scan id kind
      rw [Rmap.awaitReply]
      cases hs : Rmap.scan id kind l.buffer with
      | accepted reply rest =>
          rw [hs] at hscan
          refine ⟨hscan, rfl, ?_⟩
          intro r heq
          cases heq
          exact haccepted reply rest hs
      | rejected rest =>
          rw [hs] at hscan
          exact ⟨hscan, rfl, fun _ heq => nomatch heq⟩
      | waiting rest =>
          rw [hs] at hscan
          cases patience with
          | zero => exact ⟨hscan, rfl, fun _ heq => nomatch heq⟩
          | succ patience =>
              obtain ⟨new, grows⟩ := Target.grows_receive chunkSize t
              have hreceive : Target.socket.receive chunkSize t = t.receive chunkSize := rfl
              have hnext := hscan.receive grows
              dsimp only
              rw [hreceive]
              rcases hr : t.receive chunkSize with ⟨found, t'⟩
              rw [hr] at grows hnext
              -- where nothing was read the buffer is what the search has left
              have hnothing : content found = [] → Conversing { l with buffer := rest } t' := by
                intro hnone
                dsimp only [Scanned.rest] at hnext
                rw [hnone, List.append_nil] at hnext
                exact hnext
              cases found with
              | bytes bytes =>
                  obtain ⟨h', hcommands, hreply⟩ := awaitReply id kind patience hnext
                  exact ⟨h', hcommands.trans grows.commands, hreply⟩
              | silence => exact ⟨hnothing rfl, grows.commands, fun _ heq => nomatch heq⟩
              | hangUp => exact ⟨hnothing rfl, grows.commands, fun _ heq => nomatch heq⟩
              | failure cause =>
                  dsimp only
                  split
                  · obtain ⟨h', hcommands, hreply⟩ := awaitReply id kind patience (hnothing rfl)
                    exact ⟨h', hcommands.trans grows.commands, hreply⟩
                  · exact ⟨hnothing rfl, grows.commands, fun _ heq => nomatch heq⟩

/-- A command that is sent is the next to be numbered. -/
theorem send (h : Conversing l t) (few : t.commands.length + 1 < 65535) {command : Command}
    {packet : Bytes} {codec : Codec} (encoded : l.codec.encode command = (.ok packet, codec)) :
    Conversing { l with codec } { t with commands := t.commands ++ [packet] } := by
  obtain ⟨rfl, p, hp, hid⟩ := decode_encode encoded
  have known : ∀ (n : Nat) (q : Bytes), t.commands[n]? = some q → (t.commands ++ [packet])[n]? = some q := by
    intro n q hq
    obtain ⟨hn, -⟩ := List.getElem?_eq_some_iff.mp hq
    rw [List.getElem?_append_left hn, hq]
  refine ⟨?_, ?_, ?_, h.aligned⟩
  · -- the ids do not wrap
    have hnext := h.next
    have hwrap : l.codec.nextId ≠ 0xFFFF := by
      intro heq
      rw [heq] at hnext
      have hmax : (0xFFFF : UInt16).toNat = 65535 := rfl
      omega
    simp only [Codec.advance, if_neg hwrap, UInt16.toNat_add, List.length_append, List.length_singleton]
    have hone : (1 : UInt16).toNat = 1 := rfl
    omega
  · intro n q hq
    rcases Nat.lt_or_ge n t.commands.length with hn | hn
    · rw [List.getElem?_append_left hn] at hq
      exact h.numbered n q hq
    · rw [List.getElem?_append_right hn, List.getElem?_singleton] at hq
      split at hq
      · next hzero =>
        cases hq
        refine ⟨p, hp, ?_⟩
        rw [hid, h.next]
        omega
      · cases hq
  · exact fun e he => (h.answered e he).mono known

/-- Only the command whose id a reply bears has been answered by it. -/
theorem replied_iff (h : Conversing l t) {reply : Packet} {e : Nat × Bytes} (he : e ∈ t.replies)
    (hdecode : Packet.decode e.2 = some reply) (n : Nat) : t.Replied n reply ↔ n = e.1 := by
  constructor
  · intro hreplied
    obtain ⟨packet, hpacket, -, hn⟩ := hreplied
    have hid : reply.transactionId.toNat = n + 1 := h.transactionId hpacket hn
    have hid' := h.transactionId he hdecode
    omega
  · rintro rfl
    exact ⟨e.2, he, h.answered e he, hdecode⟩

/-- One exchange. -/
theorem transact (h : Conversing l t) (few : t.commands.length + 1 < 65535) (patience : Nat)
    (text : Text) :
    Conversing (Rmap.transact Target.socket patience l text t).2.1
      (Rmap.transact Target.socket patience l text t).2.2 ∧
    (Rmap.transact Target.socket patience l text t).2.2.commands.length ≤ t.commands.length + 1 ∧
    ∀ reply, (Rmap.transact Target.socket patience l text t).1 = .ok reply →
      ∃ command packet codec, readCommand text l.verify = .ok command ∧
        l.codec.encode command = (.ok packet, codec) ∧
        (Rmap.transact Target.socket patience l text t).2.2.commands = t.commands ++ [packet] ∧
        ∀ n, (Rmap.transact Target.socket patience l text t).2.2.Replied n reply ↔
          n = t.commands.length := by
  rw [Rmap.transact]
  cases hread : readCommand text l.verify with
  | error e => exact ⟨h, Nat.le_succ _, fun _ heq => nomatch heq⟩
  | ok command =>
      dsimp only
      rcases hencode : l.codec.encode command with ⟨e | packet, codec⟩
      case error =>
          cases hencode.symm.trans (encode_of_error (congrArg Prod.fst hencode))
          exact ⟨h, Nat.le_succ _, fun _ heq => nomatch heq⟩
      case ok =>
          have hsend : Target.socket.send (frame packet) t =
              (.ok (), { t with commands := t.commands ++ [packet] }) := rfl
          dsimp only
          rw [hsend]
          obtain ⟨h', hcommands, hreply⟩ :=
            (h.send few hencode).awaitReply l.codec.nextId command.replyKind patience
          refine ⟨h', ?_, ?_⟩
          · dsimp only at hcommands ⊢
            rw [hcommands]
            exact Nat.le_of_eq List.length_append
          · intro reply heq
            obtain ⟨e, he, hdecode, hid⟩ := hreply reply heq
            refine ⟨command, packet, codec, rfl, hencode, hcommands, ?_⟩
            -- the id of the reply is the one that the command had
            have hindex : e.1 = t.commands.length := by
              have hnumber := h'.transactionId he hdecode
              rw [hid, h.next] at hnumber
              omega
            intro n
            rw [h'.replied_iff he hdecode n, hindex]

end Conversing

/-! ## Runs -/

/-- Carries out exchanges one after another, each with a patience of its own. -/
def converse : List (Nat × Text) → Link → Target → Link × Target
  | [], l, t => (l, t)
  | (patience, text) :: rest, l, t =>
    converse rest (transact Target.socket patience l text t).2.1
      (transact Target.socket patience l text t).2.2

theorem conversing_converse :
    ∀ (calls : List (Nat × Text)) {l : Link} {t : Target}, Conversing l t →
      t.commands.length + calls.length < 65535 →
      Conversing (converse calls l t).1 (converse calls l t).2 ∧
        (converse calls l t).2.commands.length ≤ t.commands.length + calls.length
  | [], l, t, h, _ => ⟨h, Nat.le_refl _⟩
  | (patience, text) :: rest, l, t, h, few => by
      rw [List.length_cons] at few
      obtain ⟨h', hlength, -⟩ := h.transact (by omega) patience text
      obtain ⟨h'', hlength'⟩ := conversing_converse rest h' (by omega)
      refine ⟨h'', ?_⟩
      rw [converse, List.length_cons]
      omega

/-- An initiator and a target that have just been connected. -/
theorem conversing_start (target initiator key : UInt8) (verify : Bool) (plan : List Move) :
    Conversing ⟨.start target initiator key, verify, []⟩ (.planned plan) where
  next := rfl
  numbered := fun _ _ h => nomatch h
  answered := fun _ he => absurd he List.not_mem_nil
  aligned := ⟨[], [], rfl, ⟨fun _ hp => absurd hp List.not_mem_nil, rfl⟩⟩

/-- For every target, plan and run of fewer exchanges than there are ids: an exchange that succeeds
yields what the target built in reply to its own command, and to no other; and behind every exchange,
buffer and unread bytes are the frames of the latest replies. -/
theorem transact_correlation (target initiator key : UInt8) (verify : Bool) (plan : List Move)
    (earlier : List (Nat × Text)) (patience : Nat) (text : Text) (few : earlier.length + 1 < 65535) :
    ∃ l t, converse earlier ⟨.start target initiator key, verify, []⟩ (.planned plan) = (l, t) ∧
      ∃ outcome l' t', transact Target.socket patience l text t = (outcome, l', t') ∧
        (∀ reply, outcome = .ok reply →
          ∃ command packet codec, readCommand text l.verify = .ok command ∧
            l.codec.encode command = (.ok packet, codec) ∧ t'.commands = t.commands ++ [packet] ∧
            ∀ n, t'.Replied n reply ↔ n = t.commands.length) ∧
        ∃ taken later, t'.replies = taken ++ later ∧
          l'.buffer ++ t'.unread = (later.map Prod.snd).flatMap frame := by
  have hstart := conversing_start target initiator key verify plan
  have hnone : (Target.planned plan).commands.length = 0 := rfl
  obtain ⟨hbefore, hlength⟩ := conversing_converse earlier hstart (by omega)
  obtain ⟨hafter, -, hreply⟩ := hbefore.transact (by omega) patience text
  refine ⟨_, _, rfl, _, _, _, rfl, hreply, ?_⟩
  obtain ⟨taken, later, hreplies, haligned⟩ := hafter.aligned
  exact ⟨taken, later, hreplies, haligned.stream⟩

/-- A target that answers nothing in time, and then both commands.  The first read ends in the midst of the
late reply, and the next is interrupted. -/
def lateReply : List Move :=
  [⟨[], .silence⟩, ⟨[⟨0, 0, [1, 2, 3, 4]⟩, ⟨1, 0, [5, 6]⟩], .fragment 6⟩,
    ⟨[], .failure ⟨.interrupted, "Interrupted system call (os error 4)"⟩⟩, ⟨[], .fragment 100⟩]

/-- The first of two commands is answered too late. -/
theorem transact_correlation_late :
    [((1 : Nat), ("read 0x10 4" : Text))].length + 1 < 65535 ∧
      ∃ l t, converse [(1, "read 0x10 4")] ⟨.start 0x32 0x20 0x20, false, []⟩ (.planned lateReply) = (l, t) ∧
        ∃ outcome l' t', transact Target.socket 3 l "read 0x20 2" t = (outcome, l', t') ∧
          (∀ reply, outcome = .ok reply →
            ∃ command packet codec, readCommand "read 0x20 2" l.verify = .ok command ∧
              l.codec.encode command = (.ok packet, codec) ∧ t'.commands = t.commands ++ [packet] ∧
              ∀ n, t'.Replied n reply ↔ n = t.commands.length) ∧
          ∃ taken later, t'.replies = taken ++ later ∧
            l'.buffer ++ t'.unread = (later.map Prod.snd).flatMap frame :=
  ⟨by decide, transact_correlation 0x32 0x20 0x20 false lateReply [(1, "read 0x10 4")] 3 "read 0x20 2"
    (by decide)⟩

/-- There the second command gets its own reply, behind the late one. -/
example :
    ((fun (l, t) => (transact Target.socket 3 l "read 0x20 2" t).1.map Packet.data)
      (converse [(1, "read 0x10 4")] ⟨.start 0x32 0x20 0x20, false, []⟩ (.planned lateReply))) =
      .ok [5, 6] := by
  cbv

end Rmap

end GroundStation
