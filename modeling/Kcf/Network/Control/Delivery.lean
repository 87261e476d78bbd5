import Kcf.Network.Control.Reading
import Kcf.Network.Control.Replay

/-!
# A connection from end to end

`Queue` and `Write` at one end of a TCP stream, `Read` at the other: frames arrive
whole and in the order of the queue, and none is invented or lost.
-/

namespace Kcf.Network.Control

open Kcf.Wire Kcf.Transition List

/-! ## The sender -/

/-- A connection, with the frames that `Queue` took and the bytes that `Write` sent. -/
structure Sender extends Connection where
  frames : List Frame := []
  sent : Bytes := []

/-- A call of `Queue`, or a turn of `Write` in which `send` takes so many bytes. -/
inductive Transfer where
  | queue (f : Frame)
  | write (count : Nat)

def Sender.step (gateway : Gateway) (sender : Sender) : Transfer → Option Sender
  | .queue f => (gateway.queue sender.toConnection f).map fun toConnection =>
    { sender with toConnection, frames := sender.frames ++ [f] }
  | .write count =>
    some ⟨sender.write count, sender.frames, sender.sent ++ sender.outgoing count⟩

/-- A new connection, and every order of calls. -/
def sending (gateway : Gateway) : System Sender Transfer where
  initial sender :=
    sender.output = [] ∧ sender.offset = 0 ∧ sender.frames = [] ∧ sender.sent = []
  step sender transfer next := sender.step gateway transfer = some next

/-- The bytes that wait to be sent. -/
def Connection.waiting (c : Connection) : Bytes :=
  match c.output with
  | [] => []
  | front :: rest => front.drop c.offset ++ rest.flatten

variable {c : Connection}

theorem Connection.waiting_push (start : c.output = [] → c.offset = 0) (bytes : Bytes) :
    (c.push bytes).waiting = c.waiting ++ bytes := by
  cases output : c.output <;> simp [waiting, push, output, start]

/-- Short writes: no byte of the output is skipped or sent twice. -/
theorem Connection.waiting_write (count : Nat) :
    c.outgoing count ++ (c.write count).waiting = c.waiting := by
  cases output : c.output with
  | nil => simp [waiting, write, outgoing, output]
  | cons front rest =>
    by_cases short : c.offset + count < front.length
    · simp [waiting, write, outgoing, output, short, ← drop_drop, ← append_assoc]
    · have all : (front.drop c.offset).length ≤ count := by simpa [Nat.add_comm] using short
      cases rest <;> simp [waiting, write, outgoing, output, short, take_of_length_le all]

/-- What was sent and what waits are the encodings of the frames that were taken. -/
structure Sender.Conserves (codec : PayloadCodec) (sender : Sender) : Prop where
  bytes : sender.sent ++ sender.waiting = sender.frames.flatMap Frame.bytes
  start : sender.output = [] → sender.offset = 0
  valid : ∀ f ∈ sender.frames, f.Valid codec

theorem preserves_conserves (gateway : Gateway) :
    (sending gateway).Preserves (Sender.Conserves gateway.codec) := by
  intro sender transfer next stepped conserves
  cases transfer with
  | queue f =>
    obtain ⟨c, queued, rfl⟩ := Option.map_eq_some_iff.mp stepped
    unfold Gateway.queue at queued
    split at queued
    · cases queued
    next encoded =>
      obtain ⟨fit, rfl⟩ := encodeFrame_eq_ok encoded
      obtain ⟨-, ⟨⟩⟩ := Option.ite_none_right_eq_some.mp queued
      constructor
      · simp [Connection.waiting_push conserves.start, ← conserves.bytes]
      · simp [Connection.push]
      · simpa [or_imp, forall_and, fit] using conserves.valid
  | write count =>
    cases stepped
    constructor
    · rw [append_assoc, Connection.waiting_write, conserves.bytes]
    · grind [Connection.write, conserves.start]
    · exact conserves.valid

/-! ## The receiver -/

/-- The frames handed over are the first of those queued, and once the stream is read they are
all whose bytes have come. -/
structure InOrder (stream unread : Bytes) (frames handed : List Frame) : Prop where
  order : handed <+: frames
  complete : unread = [] → ∀ front, front <+: frames →
    front.flatMap Frame.bytes <+: stream → front <+: handed

variable {codec : PayloadCodec} {frames handed : List Frame} {stream seen unread rest : Bytes}

theorem parses_bytes (valid : ∀ f ∈ frames, f.Valid codec) :
    Parses (nextFrame codec) (frames.flatMap Frame.bytes) frames [] := by
  induction frames with
  | nil => exact .done []
  | cons f frames ih =>
    rw [forall_mem_cons] at valid
    exact .step (nextFrame_of_accepts _ (decodeFrame_bytes valid.1)) (ih valid.2)

theorem inOrder_of_parses (error : Bool) (valid : ∀ f ∈ frames, f.Valid codec)
    (carried : stream <+: frames.flatMap Frame.bytes) (whole : stream = seen ++ unread)
    (parsed : Parses (nextFrame codec) seen handed rest)
    (stuck : nextFrame codec rest = if error then .bad else .more) :
    error = false ∧ InOrder stream unread frames handed := by
  have recognises := recognises_nextFrame codec
  obtain ⟨more, made⟩ := carried
  have all := parses_bytes valid
  rw [← made, whole, append_assoc] at all
  obtain ⟨later, rfl, behind⟩ :=
    (parsed.append recognises _).remaining (by simp [nextFrame, prefixSize]) all
  refine ⟨?_, prefix_append _ _, ?_⟩
  · -- what follows a frame that was sent is the start of one
    cases error with
    | false => rfl
    | true =>
      have bad := recognises.bad (unread ++ more) stuck
      generalize rest ++ (unread ++ more) = tail at behind bad
      cases behind with
      | done => cases bad
      | step taken _ => cases bad.symm.trans taken
  · rintro rfl front before ⟨tail, came⟩
    have valid := fun f member => valid f (before.subset member)
    have first := (parses_bytes valid).append recognises tail
    rw [came, whole, append_nil] at first
    obtain ⟨later, rfl, -⟩ := first.remaining (by cases error <;> simp [stuck]) parsed
    exact prefix_append _ _

/-- For every order of `Queue` and `Write`, every cut of the stream and every handler: nodes and
clients get the frames in the order of the queue, and never an error. -/
theorem frames_arrive_in_order {gateway : Gateway} {sender : Sender}
    (reachable : (sending gateway).Reachable sender) (carried : stream <+: sender.sent)
    {arrivals : List Arrival} (calm : ∀ arrival ∈ arrivals, arrival.Calm) (calls : Nat) :
    (∀ {σ : Type} (receive : σ → Frame → Option σ) (handler : σ),
      let result := reads gateway.codec receive calls ⟨stream, arrivals⟩ { handler }
      result.2.2 ≠ some .rejected →
        result.2.2 = none ∧ InOrder stream result.1.unread sender.frames result.2.1.handed) ∧
    let result := FrameReader.reads gateway.codec calls ⟨stream, arrivals⟩ {}
    result.2.2 = none ∧ InOrder stream result.1.unread sender.frames result.2.1 := by
  obtain ⟨bytes, -, valid⟩ : sender.Conserves gateway.codec := by
    apply reachable.invariant _ (preserves_conserves gateway)
    rintro sender ⟨output, offset, frames, sent⟩
    constructor <;> simp [Connection.waiting, output, offset, frames, sent]
  have carried := bytes ▸ carried.trans (prefix_append _ _)
  constructor
  · intro σ receive handler result accepted
    have fresh : Kept gateway.codec stream ⟨stream, arrivals⟩ { handler } none :=
      ⟨⟨[], rfl, .done _, rfl⟩, calm, nofun, nofun⟩
    have kept : Kept _ _ result.1 result.2.1 result.2.2 := reads_kept receive calls fresh
    obtain ⟨⟨seen, whole, settled⟩, -, alive⟩ := kept
    generalize result.2.2 = refusal at accepted settled alive ⊢
    match refusal, settled with
    | none, ⟨parsed, waits⟩ =>
      exact ⟨rfl, (inOrder_of_parses false valid carried whole parsed waits).2⟩
    | some .frame, ⟨parsed, bad⟩ =>
      simpa using inOrder_of_parses true valid carried whole parsed bad
    | some .closed, _ | some .failed, _ | some .rejected, _ => simp at alive accepted
  · intro result
    obtain ⟨-, _, _, whole, parsed, stuck⟩ := @FrameReader.reads_eq gateway.codec {} _ _ _ _ _
      ⟨Nat.zero_le _, .inl rfl⟩ (by decide) calm (rfl : _ = (result.1, result.2.1, result.2.2))
    simpa using inOrder_of_parses _ valid carried whole parsed stuck

/-- A stream that is read to its end hands over every frame. -/
theorem InOrder.handed_eq (inOrder : InOrder (frames.flatMap Frame.bytes) [] frames handed) :
    handed = frames :=
  inOrder.order.eq_of_length_le (inOrder.complete rfl frames prefix_rfl prefix_rfl).length_le

def helloSocket : Socket := ⟨toolGateway.helloFrame.bytes, [.ready 300, .ready 300]⟩

set_option maxRecDepth 4096 in
/-- A greeting that is sent in two parts and comes in two parts. -/
theorem hello_arrives :
    let hello := toolGateway.helloFrame
    let node := reads toolGateway.codec (fun _ _ => some ()) 1 helloSocket { handler := () }
    let client := FrameReader.reads toolGateway.codec 1 helloSocket {}
    (node.2.2 = none ∧ node.1.unread = [] ∧ node.2.1.handed = [hello]) ∧
      client.2.2 = none ∧ client.1.unread = [] ∧ client.2.1 = [hello] := by
  let c : Connection := { id := 0, address := 0, deadline := 0 }
  have reachable : (sending toolGateway).Reachable ⟨c, [toolGateway.helloFrame], _⟩ :=
    ⟨⟨c, [], []⟩, [.queue toolGateway.helloFrame, .write 100, .write 72], ⟨rfl, rfl, rfl, rfl⟩,
      .of_foldlM (fun _ _ _ stepped => stepped) rfl⟩
  have carried : [toolGateway.helloFrame].flatMap Frame.bytes <+: _ := prefix_rfl
  have calm : ∀ arrival ∈ helloSocket.arrivals, arrival.Calm := by simp [helloSocket, Arrival.Calm]
  obtain ⟨nodes, clients⟩ := frames_arrive_in_order reachable carried calm 1
  have nodes := nodes (fun _ _ => some ()) ()
  have same : (⟨[toolGateway.helloFrame].flatMap Frame.bytes, helloSocket.arrivals⟩ : Socket) =
      helloSocket := by rw [flatMap_singleton]; rfl
  rw [same] at nodes clients
  have read : ∀ node, reads toolGateway.codec (fun _ _ => some ()) 1 helloSocket { handler := () } =
      node → node.2.2 ≠ some .rejected ∧ node.1.unread = [] := by
    rintro _ rfl
    decide +kernel
  have got : ∀ client, FrameReader.reads toolGateway.codec 1 helloSocket {} = client →
      client.1.unread = [] := by
    rintro _ rfl
    decide +kernel
  generalize reads toolGateway.codec (fun _ _ => some ()) 1 helloSocket { handler := () } = node
    at nodes read ⊢
  generalize FrameReader.reads toolGateway.codec 1 helloSocket {} = client at clients got ⊢
  obtain ⟨accepted, whole⟩ := read node rfl
  obtain ⟨open_, handed⟩ := nodes accepted
  obtain ⟨alive, delivered⟩ := clients
  rw [whole] at handed
  rw [got client rfl] at delivered
  exact ⟨⟨open_, whole, handed.handed_eq⟩, alive, got client rfl, delivered.handed_eq⟩

end Kcf.Network.Control
