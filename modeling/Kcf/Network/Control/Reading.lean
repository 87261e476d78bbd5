import Kcf.Network.Control.Exact
import Kcf.Wire.Fragments

/-!
# Reading a TCP stream

`ControlNode::Impl::Read` and `FrameReader::Read`, with the bytes of the stream cut
as the socket pleases.  The handler of the frames is a parameter.
-/

namespace Kcf.Network.Control

open Kcf.Wire List

/-! ## Sockets -/

/-- What a `recv` without waiting meets: so many bytes that have arrived, or none. -/
inductive Arrival where
  | ready (count : Nat)
  | again
  | interrupted
  | closed
  | failed (errno : Int)

/-- The connection lives. -/
def Arrival.Calm : Arrival → Prop
  | .closed | .failed _ => False
  | _ => True

/-- The bytes of a stream that have not been read, and what the calls of `recv` will meet. -/
structure Socket where
  unread : Bytes
  arrivals : List Arrival := []

/-- What `recv` returns. -/
inductive Received where
  | data (bytes : Bytes)
  | again
  | interrupted
  | closed
  | failed (errno : Int)

/-- `recv` with `MSG_DONTWAIT` into a buffer of `limit` bytes. -/
def Socket.recv (socket : Socket) (limit : Nat) : Received × Socket :=
  match socket.arrivals with
  | [] => (.again, socket)
  | .ready count :: arrivals =>
    let size := min count limit
    (if socket.unread.take size = [] then .again else .data (socket.unread.take size),
      { unread := socket.unread.drop size, arrivals })
  | .again :: arrivals => (.again, { socket with arrivals })
  | .interrupted :: arrivals => (.interrupted, { socket with arrivals })
  | .closed :: arrivals => (.closed, { socket with arrivals })
  | .failed errno :: arrivals => (.failed errno, { socket with arrivals })

/-- The bytes that a result brings. -/
def Received.content : Received → Bytes
  | .data bytes => bytes
  | _ => []

variable {socket later : Socket} {limit : Nat}

/-- No byte is lost or read twice. -/
theorem Socket.recv_unread {result : Received}
    (received : socket.recv limit = (result, later)) :
    socket.unread = result.content ++ later.unread := by
  unfold recv at received
  split at received
  · cases received
    rfl
  next count _ _ =>
    cases received
    have cut := (take_append_drop (min count limit) socket.unread).symm
    split
    next none => rwa [none] at cut
    · exact cut
  all_goals
    cases received
    rfl

theorem Socket.recv_data {bytes : Bytes}
    (received : socket.recv limit = (.data bytes, later)) :
    bytes ≠ [] ∧ bytes.length ≤ limit ∧ later.arrivals.length < socket.arrivals.length := by
  unfold recv at received
  split at received
  · cases received
  next present =>
    dsimp only at received
    split at received
    · cases received
    next some =>
      cases received
      refine ⟨some, (length_take_le _ _).trans (min_le_right _ _), ?_⟩
      rw [present]
      exact Nat.lt_succ_self _
  all_goals cases received

theorem Socket.recv_interrupted
    (received : socket.recv limit = (.interrupted, later)) :
    later.arrivals.length < socket.arrivals.length := by
  unfold recv at received
  split at received
  · cases received
  · dsimp only at received
    split at received <;> cases received
  · cases received
  next present =>
    cases received
    rw [present]
    exact Nat.lt_succ_self _
  all_goals cases received

theorem Socket.recv_calm {result : Received}
    (calm : ∀ arrival ∈ socket.arrivals, arrival.Calm)
    (received : socket.recv limit = (result, later)) :
    (∀ arrival ∈ later.arrivals, arrival.Calm) ∧ result ≠ .closed ∧
      ∀ errno, result ≠ .failed errno := by
  unfold recv at received
  split at received
  · cases received
    exact ⟨calm, nofun, nofun⟩
  next present =>
    rw [present, forall_mem_cons] at calm
    cases received
    refine ⟨calm.2, ?_⟩
    split <;> exact ⟨nofun, nofun⟩
  all_goals
    next present =>
      rw [present, forall_mem_cons] at calm
      cases received
      first
        | exact absurd calm.1 id
        | exact ⟨calm.2, nofun, nofun⟩

/-- A `recv` that meets it gets a byte, if there is one. -/
def Arrival.brings : Arrival → Bool
  | .ready count => 0 < count
  | _ => false

/-- There are arrivals enough for the bytes that have not been read. -/
def Socket.Supplied (socket : Socket) : Prop :=
  socket.unread.length ≤ socket.arrivals.countP Arrival.brings

/-- A socket behind at least so many calls of `recv`. -/
structure Socket.After (calls : Nat) (socket later : Socket) : Prop where
  arrivals : ∃ used, calls ≤ used ∧ later.arrivals = socket.arrivals.drop used
  supplied : socket.Supplied → later.Supplied

namespace Socket.After

theorem refl (socket : Socket) : socket.After 0 socket := ⟨⟨0, le_rfl, rfl⟩, id⟩

theorem trans {middle : Socket} {first second : Nat} (before : socket.After first middle)
    (behind : middle.After second later) : socket.After (first + second) later := by
  obtain ⟨⟨used, most, here⟩, supplied⟩ := before
  obtain ⟨⟨more, rest, there⟩, kept⟩ := behind
  refine ⟨⟨used + more, Nat.add_le_add most rest, ?_⟩, kept ∘ supplied⟩
  rw [there, here, drop_drop]

theorem of_le {more fewer : Nat} (after : socket.After more later) (less : fewer ≤ more) :
    socket.After fewer later :=
  ⟨after.arrivals.imp fun _ used => ⟨less.trans used.1, used.2⟩, after.supplied⟩

theorem recv {result : Received} (room : 0 < limit)
    (received : socket.recv limit = (result, later)) : socket.After 1 later := by
  unfold Socket.recv at received
  split at received
  next none =>
    cases received
    exact ⟨⟨1, le_rfl, by rw [none]; rfl⟩, id⟩
  next count arrivals some =>
    cases received
    refine ⟨⟨1, le_rfl, by rw [some]; rfl⟩, fun supplied => ?_⟩
    unfold Supplied at supplied ⊢
    rw [some, countP_cons] at supplied
    simp only [Arrival.brings, decide_eq_true_eq] at supplied
    dsimp only
    rw [length_drop]
    split at supplied <;> omega
  all_goals
    next some =>
      cases received
      refine ⟨⟨1, le_rfl, by rw [some]; rfl⟩, fun supplied => ?_⟩
      unfold Supplied at supplied ⊢
      rwa [some, countP_cons_of_neg (by simp [Arrival.brings])] at supplied

/-- Once every arrival was met, every byte is read. -/
theorem unread_eq_nil {calls : Nat} (after : socket.After calls later)
    (enough : socket.arrivals.length ≤ calls) (supplied : socket.Supplied) :
    later.unread = [] := by
  obtain ⟨used, most, rest⟩ := after.arrivals
  have few := after.supplied supplied
  rw [Supplied, rest, drop_of_length_le (enough.trans most)] at few
  exact length_eq_zero_iff.mp (Nat.le_zero.mp few)

end Socket.After

/-! ## The node -/

/-- Why `Read` returns false. -/
inductive Refusal where
  | closed | failed | frame | rejected | overflow
  deriving DecidableEq

/-- A connection that is read: its input, what its handler knows and the frames handed over. -/
structure Intake (σ : Type) where
  input : Bytes := []
  handler : σ
  handed : List Frame := []

section Node

variable {σ : Type} (codec : PayloadCodec) (receive : σ → Frame → Option σ)

/-- The inner loop of `Read`: frames are handed over as long as one is complete. -/
def drain : Nat → Intake σ → Intake σ × Option Refusal
  | 0, intake => (intake, none)
  | fuel + 1, intake =>
    match nextFrame codec intake.input with
    | .more => (intake, none)
    | .bad => (intake, some .frame)
    | .frame f rest =>
      match receive intake.handler f with
      | none => ({ intake with handed := intake.handed ++ [f] }, some .rejected)
      | some handler => drain fuel { input := rest, handler, handed := intake.handed ++ [f] }

/-- The attempts of one call of `Read` that are left. -/
def readAttempts : Nat → Socket → Intake σ → Socket × Intake σ × Option Refusal
  | 0, socket, intake => (socket, intake, none)
  | attempts + 1, socket, intake =>
    match socket.recv 4096 with
    | (.closed, socket) => (socket, intake, some .closed)
    | (.failed _, socket) => (socket, intake, some .failed)
    | (.again, socket) => (socket, intake, none)
    | (.interrupted, socket) => (socket, intake, none)
    | (.data bytes, socket) =>
      let input := intake.input ++ bytes
      match drain codec receive input.length { intake with input } with
      | (intake, some refusal) => (socket, intake, some refusal)
      | (intake, none) =>
        if maxFrame < intake.input.length then (socket, intake, some .overflow)
        else readAttempts attempts socket intake

/-- `ControlNode::Impl::Read`. -/
def read (socket : Socket) (intake : Intake σ) : Socket × Intake σ × Option Refusal :=
  readAttempts codec receive 16 socket intake

/-- So many calls of `Read`; the connection is dropped when one returns false. -/
def reads : Nat → Socket → Intake σ → Socket × Intake σ × Option Refusal
  | 0, socket, intake => (socket, intake, none)
  | calls + 1, socket, intake =>
    match read codec receive socket intake with
    | (socket, intake, some refusal) => (socket, intake, some refusal)
    | (socket, intake, none) => reads calls socket intake

end Node

/-! ## The clients -/

/-- `FrameReader`. -/
structure FrameReader where
  bytes : Bytes := []
  target : Nat := prefixSize

/-- What `FrameReader::Read` returns: a frame, nothing yet, or an error. -/
inductive Delivery where
  | frame (f : Frame)
  | nothing
  | error (code : Int)

namespace FrameReader

variable (codec : PayloadCodec)

/-- The first half of a turn: what is complete is looked at.  The second component is what
`Read` returns then; without one it goes on and receives. -/
def examine (reader : FrameReader) : FrameReader × Option Delivery :=
  if reader.bytes.length = reader.target then
    if reader.target = prefixSize then
      match frameSize reader.bytes with
      | .error code => (reader, some (.error code))
      | .ok target =>
        if maxFrame < target then ({ reader with target }, some (.error (-Errno.emsgsize)))
        else ({ reader with target }, none)
    else
      match decodeFrame codec reader.bytes with
      | .error code => ({}, some (.error code))
      | .ok f => ({}, some (.frame f))
  else (reader, none)

/-- The turns of the loop of `Read`; each takes one arrival off the socket. -/
def turns : Nat → Socket → FrameReader → Socket × FrameReader × Delivery
  | 0, socket, reader => (socket, reader, .nothing)
  | fuel + 1, socket, reader =>
    match reader.examine codec with
    | (reader, some delivery) => (socket, reader, delivery)
    | (reader, none) =>
      match socket.recv (min 4096 (reader.target - reader.bytes.length)) with
      | (.data bytes, socket) => turns fuel socket { reader with bytes := reader.bytes ++ bytes }
      | (.closed, socket) => (socket, reader, .error (-Errno.econnreset))
      | (.interrupted, socket) => turns fuel socket reader
      | (.again, socket) => (socket, reader, .nothing)
      | (.failed errno, socket) => (socket, reader, .error (-errno))

/-- `FrameReader::Read`. -/
def read (socket : Socket) (reader : FrameReader) : Socket × FrameReader × Delivery :=
  reader.turns codec (socket.arrivals.length + 1) socket

/-- So many calls of `Read`, up to the first error; the frames are those delivered. -/
def reads : Nat → Socket → FrameReader → Socket × List Frame × Option Int
  | 0, socket, _ => (socket, [], none)
  | calls + 1, socket, reader =>
    match read codec socket reader with
    | (socket, _, .error code) => (socket, [], some code)
    | (socket, reader, .nothing) => reads calls socket reader
    | (socket, reader, .frame f) =>
      let (socket, frames, ended) := reads calls socket reader
      (socket, f :: frames, ended)

end FrameReader

/-! ## Pieces of a stream -/

/-- `ControlFrameSize` looks at the first 16 bytes only. -/
theorem fixed_readPrefix : Fixed prefixSize readPrefix :=
  ((Fixed.number _ 4).map _).bind fun _ => (Fixed.require _ _).bind fun _ =>
    ((Fixed.number _ 2).map _).bind fun _ => (Fixed.require _ _).bind fun _ =>
      ((Fixed.number _ 2).map _).bind fun _ => (Fixed.require _ _).bind fun _ =>
        (Fixed.number _ 4).bind fun _ => (Fixed.require _ _).bind fun _ =>
          (Fixed.require _ _).bind fun _ => (Fixed.require _ _).bind fun _ =>
            ((Fixed.number _ 4).bind fun _ => Fixed.require _ _).bind fun _ => Fixed.pure _

theorem frameSize_append {bytes : Bytes} (long : prefixSize ≤ bytes.length) (more : Bytes) :
    frameSize (bytes ++ more) = frameSize bytes := by
  have start : ¬bytes.length < prefixSize := not_lt.mpr long
  have longer : ¬(bytes ++ more).length < prefixSize := by
    rw [length_append]
    omega
  unfold frameSize
  rw [if_neg start, if_neg longer]
  obtain ⟨error, failed⟩ | ⟨value, read⟩ := fixed_readPrefix bytes long
  · have alone := failed []
    rw [append_nil] at alone
    rw [failed, alone]
  · have alone := read []
    rw [append_nil, append_nil] at alone
    rw [read, alone]

/-- Announced lengths are bounded. -/
theorem frameSize_bounds {bytes : Bytes} {size : Nat} (announced : frameSize bytes = .ok size) :
    prefixSize ≤ bytes.length ∧ headerSize ≤ size ∧ size ≤ maxFrame := by
  have long : prefixSize ≤ bytes.length := by
    by_contra short
    unfold frameSize at announced
    rw [if_pos (not_le.mp short)] at announced
    cases announced
  obtain ⟨rest, read⟩ := frameSize_eq_ok announced
  obtain ⟨_, _, bounds, _⟩ := reads_prefix.of_ok read
  exact ⟨long, bounds⟩

section Pieces

variable {codec : PayloadCodec} {input : Bytes}

/-- The byte string is a frame. -/
def Accepts (codec : PayloadCodec) (piece : Bytes) (f : Frame) : Prop :=
  decodeFrame codec piece = .ok f

/-- The bytes start with an invalid prefix, or with a complete frame that does not decode. -/
def Broken (codec : PayloadCodec) (input : Bytes) : Prop :=
  prefixSize ≤ input.length ∧
    ((∃ code, frameSize (input.take prefixSize) = .error code) ∨
      ∃ size, frameSize (input.take prefixSize) = .ok size ∧ size ≤ input.length ∧
        ∃ code, decodeFrame codec (input.take size) = .error code)

theorem frameSize_take (long : prefixSize ≤ input.length) :
    frameSize (input.take prefixSize) = frameSize input := by
  have start : prefixSize ≤ (input.take prefixSize).length := by
    rw [length_take]
    omega
  rw [← frameSize_append start (input.drop prefixSize), take_append_drop]

theorem nextFrame_eq_bad : nextFrame codec input = .bad ↔ Broken codec input := by
  unfold nextFrame Broken
  by_cases short : input.length < prefixSize
  · rw [if_pos short]
    exact ⟨(nomatch ·), fun broken => absurd broken.1 (not_le.mpr short)⟩
  · rw [if_neg short, frameSize_take (not_lt.mp short)]
    cases announced : frameSize input with
    | error code => exact ⟨fun _ => ⟨not_lt.mp short, .inl ⟨code, rfl⟩⟩, fun _ => rfl⟩
    | ok size =>
      by_cases missing : input.length < size
      · simp only [if_pos missing, reduceCtorEq, false_iff]
        rintro ⟨-, ⟨_, other⟩ | ⟨_, same, complete, -⟩⟩
        · cases other
        · cases same
          omega
      · simp only [if_neg missing]
        cases decoded : decodeFrame codec (input.take size) with
        | error code =>
          exact ⟨fun _ => ⟨not_lt.mp short, .inr ⟨size, rfl, not_lt.mp missing, code, decoded⟩⟩,
            fun _ => rfl⟩
        | ok f =>
          simp only [reduceCtorEq, false_iff]
          rintro ⟨-, ⟨_, other⟩ | ⟨_, same, -, _, refused⟩⟩
          · cases other
          · cases same
            rw [decoded] at refused
            cases refused

/-- A frame that is complete does not wait, so the bytes that wait are fewer than a frame. -/
theorem length_of_more (waits : nextFrame codec input = .more) : input.length < maxFrame := by
  unfold nextFrame at waits
  split at waits
  next short => exact lt_trans short (by decide)
  split at waits
  · cases waits
  next announced =>
    split at waits
    next missing => exact lt_of_lt_of_le missing (frameSize_bounds announced).2.2
    · split at waits <;> cases waits

theorem nextFrame_of_accepts {piece : Bytes} {f : Frame} (more : Bytes)
    (accepted : Accepts codec piece f) : nextFrame codec (piece ++ more) = .frame f more := by
  have announced := (decodeFrame_eq_ok accepted).1
  have long := (frameSize_bounds announced).1
  have start : ¬(piece ++ more).length < prefixSize := by
    rw [length_append]
    omega
  have whole : ¬(piece ++ more).length < piece.length := by
    rw [length_append]
    omega
  unfold nextFrame
  rw [if_neg start, frameSize_append long, announced]
  simp only [if_neg whole, take_left, drop_left]
  rw [accepted]

/-- Bytes behind a frame do not change how it is read. -/
theorem recognises_nextFrame (codec : PayloadCodec) :
    Recognises (nextFrame codec) (Accepts codec) := by
  constructor
  case frame =>
    intro input rest f taken
    unfold nextFrame at taken
    split at taken
    · cases taken
    split at taken
    · cases taken
    next size _ =>
      split at taken
      · cases taken
      split at taken
      · cases taken
      next decoded =>
        cases taken
        exact ⟨input.take size, (take_append_drop _ _).symm, decoded⟩
  case piece => exact fun more accepted => nextFrame_of_accepts more accepted
  case bad =>
    intro input more bad
    rw [nextFrame_eq_bad] at bad ⊢
    obtain ⟨long, broken⟩ := bad
    have longer : prefixSize ≤ (input ++ more).length := by
      rw [length_append]
      omega
    refine ⟨longer, ?_⟩
    rw [take_append_of_le_length long]
    refine broken.imp id ?_
    rintro ⟨size, announced, complete, refused⟩
    refine ⟨size, announced, ?_, ?_⟩
    · rw [length_append]
      omega
    · rw [take_append_of_le_length complete]
      exact refused

/-- Taking a frame leaves fewer bytes. -/
theorem length_of_frame {rest : Bytes} {f : Frame}
    (taken : nextFrame codec input = .frame f rest) : rest.length < input.length := by
  obtain ⟨piece, rfl, accepted⟩ := (recognises_nextFrame codec).frame taken
  have long := (frameSize_bounds (decodeFrame_eq_ok accepted).1).1
  have positive : 0 < prefixSize := by decide
  rw [length_append]
  omega

theorem not_accepts_nil (f : Frame) : ¬Accepts codec [] f := by
  intro accepted
  have long := (frameSize_bounds (decodeFrame_eq_ok accepted).1).1
  exact absurd long (by decide)

end Pieces

/-! ## What has been handed over -/

section Handed

variable {σ : Type} (codec : PayloadCodec) (receive : σ → Frame → Option σ)

/-- What holds of the frames that were handed over and the input that is left, in which no
frame is complete. -/
def Settled (parses : List Frame → Bytes → Prop) (intake : Intake σ) : Option Refusal → Prop
  | none | some .closed | some .failed =>
    parses intake.handed intake.input ∧ nextFrame codec intake.input = .more
  | some .frame => parses intake.handed intake.input ∧ nextFrame codec intake.input = .bad
  | some .rejected => True
  | some .overflow => False

theorem drain_settled (parses : List Frame → Bytes → Prop)
    (snoc : ∀ {handed input f rest}, parses handed input → nextFrame codec input = .frame f rest →
      parses (handed ++ [f]) rest)
    (fuel : Nat) (intake : Intake σ) (parsed : parses intake.handed intake.input)
    (enough : intake.input.length ≤ fuel) :
    Settled codec parses (drain codec receive fuel intake).1 (drain codec receive fuel intake).2 ∧
      (drain codec receive fuel intake).2 ≠ some .closed ∧
      (drain codec receive fuel intake).2 ≠ some .failed := by
  induction fuel generalizing intake with
  | zero =>
    have empty : intake.input = [] := length_eq_zero_iff.mp (Nat.le_zero.mp enough)
    exact ⟨⟨parsed, empty ▸ rfl⟩, nofun, nofun⟩
  | succ fuel ih =>
    rw [drain]
    cases taken : nextFrame codec intake.input with
    | more => exact ⟨⟨parsed, taken⟩, nofun, nofun⟩
    | bad => exact ⟨⟨parsed, taken⟩, nofun, nofun⟩
    | frame f rest =>
      dsimp only
      cases accepted : receive intake.handler f with
      | none => exact ⟨trivial, nofun, nofun⟩
      | some handler =>
        have shorter := length_of_frame taken
        exact ih _ (snoc parsed taken) (Nat.le_of_lt_succ (lt_of_lt_of_le shorter enough))

/-- A connection that is read: every byte of the stream was seen or is unread. -/
structure Kept (stream : Bytes) (socket : Socket) (intake : Intake σ) (refusal : Option Refusal) :
    Prop where
  settled : ∃ seen, stream = seen ++ socket.unread ∧
    Settled codec (Parses (nextFrame codec) seen) intake refusal
  calm : ∀ arrival ∈ socket.arrivals, arrival.Calm
  alive : refusal ≠ some .closed ∧ refusal ≠ some .failed

variable {codec} {stream : Bytes}

theorem readAttempts_kept (attempts : Nat) {socket : Socket} {intake : Intake σ}
    (kept : Kept codec stream socket intake none) :
    Kept codec stream (readAttempts codec receive attempts socket intake).1
      (readAttempts codec receive attempts socket intake).2.1
      (readAttempts codec receive attempts socket intake).2.2 := by
  induction attempts generalizing socket intake with
  | zero => exact kept
  | succ attempts ih =>
    obtain ⟨⟨seen, whole, parsed, waits⟩, calm, -⟩ := kept
    cases received : socket.recv 4096 with
    | mk result later =>
      obtain ⟨calm, lives, sound⟩ := Socket.recv_calm calm received
      have whole := whole.trans (congrArg (seen ++ ·) (Socket.recv_unread received))
      rw [readAttempts, received]
      cases result with
      | closed => exact absurd rfl lives
      | failed errno => exact absurd rfl (sound errno)
      | again => exact ⟨⟨seen, whole, parsed, waits⟩, calm, nofun, nofun⟩
      | interrupted => exact ⟨⟨seen, whole, parsed, waits⟩, calm, nofun, nofun⟩
      | data bytes =>
        have whole : stream = seen ++ bytes ++ later.unread := whole.trans (append_assoc ..).symm
        obtain ⟨drained, alive⟩ := drain_settled codec receive
          (Parses (nextFrame codec) (seen ++ bytes)) (·.snoc ·) (intake.input ++ bytes).length
          { intake with input := intake.input ++ bytes }
          (parsed.append (recognises_nextFrame codec) bytes) le_rfl
        dsimp only
        cases result : drain codec receive (intake.input ++ bytes).length
            { intake with input := intake.input ++ bytes } with
        | mk intake refusal =>
          rw [result] at drained alive
          cases refusal with
          | some refusal => exact ⟨⟨_, whole, drained⟩, calm, alive⟩
          | none =>
            have short : ¬maxFrame < intake.input.length := not_lt.mpr (length_of_more drained.2).le
            dsimp only
            rw [if_neg short]
            exact ih ⟨⟨_, whole, drained⟩, calm, nofun, nofun⟩

theorem readAttempts_after (attempts : Nat) (socket : Socket) (intake : Intake σ) :
    socket.After (min attempts 1) (readAttempts codec receive attempts socket intake).1 := by
  induction attempts generalizing socket intake with
  | zero => exact .refl socket
  | succ attempts ih =>
    rw [Nat.min_eq_right (Nat.le_add_left ..)]
    cases received : socket.recv 4096 with
    | mk result later =>
      have after := Socket.After.recv (by decide) received
      rw [readAttempts, received]
      cases result with
      | data bytes =>
        dsimp only
        split
        · exact after
        split
        · exact after
        · exact (after.trans (ih later _)).of_le (Nat.le_add_right ..)
      | _ => exact after

/-- Each call of `Read` meets an arrival. -/
theorem reads_after {calls : Nat} {socket : Socket} {intake : Intake σ}
    (open_ : (reads codec receive calls socket intake).2.2 = none) :
    socket.After calls (reads codec receive calls socket intake).1 := by
  induction calls generalizing socket intake with
  | zero => exact .refl socket
  | succ calls ih =>
    have after : socket.After 1 _ := @readAttempts_after _ codec receive 16 socket intake
    rw [reads, read] at open_ ⊢
    cases result : readAttempts codec receive 16 socket intake with
    | mk socket rest =>
      obtain ⟨intake, refusal⟩ := rest
      rw [result] at open_ after
      cases refusal with
      | some refusal => cases open_
      | none => exact (Nat.add_comm 1 calls) ▸ after.trans (ih open_)

theorem reads_kept (calls : Nat) {socket : Socket} {intake : Intake σ}
    (kept : Kept codec stream socket intake none) :
    Kept codec stream (reads codec receive calls socket intake).1
      (reads codec receive calls socket intake).2.1
      (reads codec receive calls socket intake).2.2 := by
  induction calls generalizing socket intake with
  | zero => exact kept
  | succ calls ih =>
    have after := readAttempts_kept receive 16 kept
    rw [reads, read]
    cases result : readAttempts codec receive 16 socket intake with
    | mk socket rest =>
      obtain ⟨intake, refusal⟩ := rest
      rw [result] at after
      cases refusal with
      | some refusal => exact after
      | none => exact ih after

end Handed

namespace FrameReader

variable {codec : PayloadCodec} {reader : FrameReader}

/-- A reader holds no more than it waits for, and waits for a prefix or for what the prefix
announces. -/
def Holds (reader : FrameReader) : Prop :=
  reader.bytes.length ≤ reader.target ∧
    (reader.target = prefixSize ∨ frameSize reader.bytes = .ok reader.target)

/-- A reader that has to wait does not hold a frame. -/
theorem Holds.waits (holds : reader.Holds) (short : reader.bytes.length < reader.target) :
    nextFrame codec reader.bytes = .more := by
  unfold nextFrame
  obtain ⟨-, start | announced⟩ := holds
  · rw [if_pos (start ▸ short)]
  · rw [if_neg (not_lt.mpr (frameSize_bounds announced).1), announced]
    exact if_pos short

/-- What a delivery says about the bytes that have arrived. -/
def Reports (codec : PayloadCodec) (after : FrameReader) (bytes : Bytes) : Delivery → Prop
  | .frame f => after = {} ∧ nextFrame codec bytes = .frame f []
  | .nothing =>
    after.Holds ∧ after.bytes.length < after.target ∧ after.bytes = bytes ∧
      nextFrame codec bytes = .more
  | .error _ => nextFrame codec bytes = .bad

/-- What the first half of a turn finds. -/
theorem examine_eq (holds : reader.Holds) {later : FrameReader} {delivery : Option Delivery}
    (examined : reader.examine codec = (later, delivery)) :
    match delivery with
    | none => later.Holds ∧ later.bytes = reader.bytes ∧ later.bytes.length < later.target
    | some delivery =>
      ¬reader.bytes.length < reader.target ∧ Reports codec later reader.bytes delivery := by
  obtain ⟨fits, kind⟩ := holds
  unfold examine at examined
  split at examined
  next full =>
    have whole : ¬reader.bytes.length < reader.target := by omega
    split at examined
    next start =>
      have short : ¬reader.bytes.length < prefixSize := by omega
      split at examined
      next refused =>
        cases examined
        refine ⟨whole, ?_⟩
        change nextFrame codec reader.bytes = .bad
        unfold nextFrame
        rw [if_neg short, refused]
      next announced =>
        obtain ⟨-, large, small⟩ := frameSize_bounds announced
        rw [if_neg (not_lt.mpr small)] at examined
        cases examined
        have more : prefixSize < headerSize := by decide
        refine ⟨⟨?_, .inr announced⟩, rfl, ?_⟩
        · dsimp only
          omega
        · dsimp only
          omega
    next other =>
      have announced := kind.resolve_left other
      have short : ¬reader.bytes.length < prefixSize := not_lt.mpr (frameSize_bounds announced).1
      split at examined
      next refused =>
        cases examined
        refine ⟨whole, ?_⟩
        change nextFrame codec reader.bytes = .bad
        unfold nextFrame
        rw [if_neg short, announced]
        simp only [if_neg whole]
        rw [← full, take_length, refused]
      next accepted =>
        cases examined
        refine ⟨whole, rfl, ?_⟩
        have taken := nextFrame_of_accepts [] accepted
        rwa [append_nil] at taken
  next partly =>
    cases examined
    exact ⟨⟨fits, kind⟩, rfl, lt_of_le_of_ne fits partly⟩

/-- What one call makes of the bytes that it receives; unless it has a frame already, it meets
an arrival. -/
theorem turns_eq {fuel : Nat} {socket later : Socket} {after : FrameReader} {delivery : Delivery}
    (holds : reader.Holds) (enough : socket.arrivals.length < fuel)
    (calm : ∀ arrival ∈ socket.arrivals, arrival.Calm)
    (ended : reader.turns codec fuel socket = (later, after, delivery)) :
    (∀ arrival ∈ later.arrivals, arrival.Calm) ∧
      socket.After (if reader.bytes.length < reader.target then 1 else 0) later ∧
      ∃ got, socket.unread = got ++ later.unread ∧
        Reports codec after (reader.bytes ++ got) delivery := by
  induction fuel generalizing socket reader with
  | zero => exact absurd enough (Nat.not_lt_zero _)
  | succ fuel ih =>
    rw [turns] at ended
    cases examined : reader.examine codec with
    | mk next delivered =>
      have found := examine_eq holds examined
      rw [examined] at ended
      cases delivered with
      | some delivered =>
        cases ended
        rw [if_neg found.1]
        refine ⟨calm, .refl _, [], rfl, ?_⟩
        rw [append_nil]
        exact found.2
      | none =>
        obtain ⟨held, same, short⟩ := found
        have waits : nextFrame codec next.bytes = .more := held.waits short
        dsimp only at ended
        cases received : socket.recv (min 4096 (next.target - next.bytes.length)) with
        | mk result rest =>
          obtain ⟨calm, lives, sound⟩ := Socket.recv_calm calm received
          have unread := Socket.recv_unread received
          have met : socket.After (if reader.bytes.length < reader.target then 1 else 0) rest :=
            (Socket.After.recv (by omega) received).of_le (by split <;> decide)
          rw [received] at ended
          cases result with
          | closed => exact absurd rfl lives
          | failed errno => exact absurd rfl (sound errno)
          | again =>
            cases ended
            refine ⟨calm, met, [], unread, ?_⟩
            rw [append_nil, ← same]
            exact ⟨held, short, rfl, waits⟩
          | interrupted =>
            have fewer := Socket.recv_interrupted received
            obtain ⟨calm, behind, got, cut, result⟩ := ih held (by omega) calm ended
            rw [same] at result
            exact ⟨calm, (met.trans behind).of_le (Nat.le_add_right ..), got, unread.trans cut,
              result⟩
          | data bytes =>
            obtain ⟨-, fits, fewer⟩ := Socket.recv_data received
            have longer : Holds { next with bytes := next.bytes ++ bytes } := by
              refine ⟨?_, held.2.imp id fun announced => ?_⟩
              · rw [length_append]
                dsimp only
                omega
              · exact (frameSize_append (frameSize_bounds announced).1 bytes).trans announced
            obtain ⟨calm, behind, got, cut, result⟩ := ih longer (by omega) calm ended
            dsimp only at result
            rw [same, append_assoc] at result
            refine ⟨calm, (met.trans behind).of_le (Nat.le_add_right ..), bytes ++ got, ?_, result⟩
            rw [unread, cut, append_assoc]
            rfl

/-- What the calls deliver is what the bytes that they receive begin with, and up to an error
each of them meets an arrival. -/
theorem reads_eq {calls : Nat} {socket later : Socket} {frames : List Frame} {ended : Option Int}
    (holds : reader.Holds) (short : reader.bytes.length < reader.target)
    (calm : ∀ arrival ∈ socket.arrivals, arrival.Calm)
    (result : reader.reads codec calls socket = (later, frames, ended)) :
    (ended = none → socket.After calls later) ∧
    ∃ got rest, socket.unread = got ++ later.unread ∧
      Parses (nextFrame codec) (reader.bytes ++ got) frames rest ∧
      nextFrame codec rest = if ended.isSome then .bad else .more := by
  induction calls generalizing socket reader frames with
  | zero =>
    cases result
    refine ⟨fun _ => .refl _, [], reader.bytes, rfl, ?_, holds.waits short⟩
    rw [append_nil]
    exact .done _
  | succ calls ih =>
    rw [reads, read] at result
    cases turned : reader.turns codec (socket.arrivals.length + 1) socket with
    | mk next rest =>
      obtain ⟨after, delivery⟩ := rest
      obtain ⟨calm, met, got, cut, found⟩ := turns_eq holds (Nat.lt_succ_self _) calm turned
      rw [if_pos short] at met
      rw [turned] at result
      cases delivery with
      | error code =>
        cases result
        exact ⟨nofun, got, _, cut, .done _, found⟩
      | nothing =>
        obtain ⟨held, short, same, -⟩ := found
        obtain ⟨behind, more, rest, tail, parsed, stuck⟩ := ih held short calm result
        rw [same, append_assoc] at parsed
        refine ⟨fun open_ => ?_, got ++ more, rest, ?_, parsed, stuck⟩
        · exact Nat.add_comm 1 calls ▸ met.trans (behind open_)
        · rw [cut, tail, append_assoc]
      | frame f =>
        obtain ⟨rfl, taken⟩ := found
        dsimp only at result
        cases others : FrameReader.reads codec calls next {} with
        | mk socket remaining =>
          obtain ⟨frames, ended⟩ := remaining
          rw [others] at result
          cases result
          obtain ⟨behind, more, rest, tail, parsed, stuck⟩ :=
            ih ⟨Nat.zero_le _, .inl rfl⟩ (by decide) calm others
          obtain ⟨piece, whole, accepted⟩ := (recognises_nextFrame codec).frame taken
          refine ⟨fun open_ => ?_, got ++ more, rest, ?_, ?_, stuck⟩
          · exact Nat.add_comm 1 calls ▸ met.trans (behind open_)
          · rw [cut, tail, append_assoc]
          · rw [← append_assoc, whole, append_nil]
            exact .step (nextFrame_of_accepts more accepted) parsed

end FrameReader

/-! ## Every way of cutting a stream -/

/-- A reader has handed over the frames of the longest prefix that consists of frames, and has
reported an error if what comes behind that prefix is not the start of a frame. -/
def Delivers (codec : PayloadCodec) (stream unread : Bytes) (frames : List Frame) (error : Bool) :
    Prop :=
  ∃ front rest, stream = front ++ rest ++ unread ∧
    Longest (Accepts codec) (front ++ rest) front frames ∧ (error = true ↔ Broken codec rest) ∧
    (unread = [] ∨ error = true → Longest (Accepts codec) stream front frames)

section Delivers

variable {codec : PayloadCodec} {stream unread : Bytes} {frames : List Frame} {error : Bool}

theorem delivers_of_parses {seen rest : Bytes} (whole : stream = seen ++ unread)
    (parsed : Parses (nextFrame codec) seen frames rest)
    (stuck : nextFrame codec rest = if error then .bad else .more) :
    Delivers codec stream unread frames error := by
  have recognises := recognises_nextFrame codec
  have ended : ∀ f tail, nextFrame codec rest ≠ .frame f tail := by
    intro f tail taken
    rw [stuck] at taken
    split at taken <;> cases taken
  obtain ⟨front, rfl, longest⟩ := parsed.longest recognises ended
  refine ⟨front, rest, whole, longest, ?_, ?_⟩
  · rw [← nextFrame_eq_bad, stuck]
    cases error <;> simp
  · rintro (rfl | rfl)
    · rwa [whole, append_nil]
    · have later : ∀ f tail, nextFrame codec (rest ++ unread) ≠ .frame f tail := by
        intro f tail taken
        rw [recognises.bad unread stuck] at taken
        cases taken
      obtain ⟨start, same, longest⟩ := (parsed.append recognises unread).longest recognises later
      rw [append_assoc, append_left_inj] at same
      rw [whole]
      exact same ▸ longest

/-- Two readers that have come to the end of a stream have handed over the same frames. -/
theorem Delivers.unique {remaining : Bytes} {others : List Frame} {failed : Bool}
    (first : Delivers codec stream unread frames error)
    (second : Delivers codec stream remaining others failed)
    (done : unread = [] ∨ error = true) (finished : remaining = [] ∨ failed = true) :
    frames = others := by
  obtain ⟨_, _, -, -, -, longest⟩ := first
  obtain ⟨_, _, -, -, -, other⟩ := second
  exact ((longest done).unique (recognises_nextFrame codec) not_accepts_nil (other finished)).2

end Delivers

/-- What is handed over does not depend on how the stream is cut, and it is the same for
nodes and clients.  Where every byte has an arrival and every arrival a call, both come to the
end of the stream or to an error.  No more than a frame is ever kept. -/
theorem fragmentation_is_invisible {σ : Type} (codec : PayloadCodec)
    (receive : σ → Frame → Option σ) (handler : σ) (stream : Bytes) :
    (∀ calls arrivals, (∀ arrival ∈ arrivals, Arrival.Calm arrival) →
      let result := reads codec receive calls { unread := stream, arrivals } { handler }
      result.2.2 ≠ some .overflow ∧ (result.2.2 ≠ some .rejected →
        Delivers codec stream result.1.unread result.2.1.handed result.2.2.isSome) ∧
      (stream.length ≤ arrivals.countP Arrival.brings →
        arrivals.length ≤ calls → result.1.unread = [] ∨ result.2.2.isSome)) ∧
    (∀ calls arrivals, (∀ arrival ∈ arrivals, Arrival.Calm arrival) →
      let result := FrameReader.reads codec calls { unread := stream, arrivals } {}
      Delivers codec stream result.1.unread result.2.1 result.2.2.isSome ∧
      (stream.length ≤ arrivals.countP Arrival.brings →
        arrivals.length ≤ calls → result.1.unread = [] ∨ result.2.2.isSome)) ∧
    (∀ {unread remaining frames others error failed},
      Delivers codec stream unread frames error → Delivers codec stream remaining others failed →
        (unread = [] ∨ error = true) → (remaining = [] ∨ failed = true) → frames = others) ∧
    ∀ intake : Intake σ, (drain codec receive intake.input.length intake).2 = none →
      (drain codec receive intake.input.length intake).1.input.length < maxFrame := by
  refine ⟨?_, ?_, Delivers.unique, ?_⟩
  · intro calls arrivals calm result
    have fresh : Kept codec stream { unread := stream, arrivals } { handler } none :=
      ⟨⟨[], rfl, .done _, rfl⟩, calm, nofun, nofun⟩
    obtain ⟨⟨seen, whole, settled⟩, -, open_, sound⟩ := reads_kept receive calls fresh
    change stream = seen ++ result.1.unread at whole
    change Settled codec (Parses _ seen) result.2.1 result.2.2 at settled
    change result.2.2 ≠ _ at open_ sound
    cases refusal : result.2.2 with
    | none =>
      rw [refusal] at settled
      refine ⟨nofun, fun _ => delivers_of_parses whole settled.1 settled.2, fun bytes most => ?_⟩
      exact .inl ((reads_after receive refusal).unread_eq_nil most bytes)
    | some reason =>
      rw [refusal] at settled open_ sound
      cases reason with
      | closed => exact absurd rfl open_
      | failed => exact absurd rfl sound
      | frame =>
        exact ⟨nofun, fun _ => delivers_of_parses whole settled.1 settled.2, fun _ _ => .inr rfl⟩
      | rejected => exact ⟨nofun, fun accepted => absurd rfl accepted, fun _ _ => .inr rfl⟩
      | overflow => exact absurd settled id
  · intro calls arrivals calm result
    obtain ⟨met, got, rest, whole, parsed, stuck⟩ := @FrameReader.reads_eq codec {} _ _ _ _ _
      ⟨Nat.zero_le _, .inl rfl⟩ (by decide) calm (rfl : _ = (result.1, result.2.1, result.2.2))
    refine ⟨delivers_of_parses whole parsed stuck, fun bytes most => ?_⟩
    cases ended : result.2.2 with
    | none => exact .inl ((met ended).unread_eq_nil most bytes)
    | some code => exact .inr rfl
  · intro intake finished
    have settled := (drain_settled codec receive (fun _ _ => True) (fun _ _ => trivial) _ intake
      trivial le_rfl).1
    rw [finished] at settled
    exact length_of_more settled.2

/-- The greeting, and 16 zeros behind it. -/
def greetingStream : Bytes := greeting.bytes ++ replicate 16 0

def greetingArrivals : List Arrival := [.ready 100, .again, .ready 300]

/-- The node gets the greeting in two parts, and a client gets it byte by byte. -/
theorem greeting_cut_in_two :
    let node := reads greetingCodec (fun _ _ => some ()) 2
      { unread := greetingStream, arrivals := greetingArrivals } { handler := () }
    let client := FrameReader.reads greetingCodec 200
      { unread := greetingStream, arrivals := replicate 200 (.ready 1) } {}
    (node.2.1.handed = [greeting] ∧ node.2.2 = some .frame) ∧
      Delivers greetingCodec greetingStream node.1.unread node.2.1.handed true ∧
      client.2.1 = [greeting] := by
  have computed : ∀ node, reads greetingCodec (fun _ _ => some ()) 2
      { unread := greetingStream, arrivals := greetingArrivals } { handler := () } = node →
        node.2.1.handed = [greeting] ∧ node.2.2 = some .frame := by
    rintro _ rfl
    decide +kernel
  have short : greetingStream.length ≤ 200 := by decide +kernel
  have calm : ∀ arrival ∈ greetingArrivals, Arrival.Calm arrival := by
    simp [greetingArrivals, Arrival.Calm]
  have bytes : ∀ arrival ∈ replicate 200 (.ready 1), Arrival.Calm arrival := by
    intro arrival member
    rw [eq_of_mem_replicate member]
    trivial
  obtain ⟨nodes, clients, unique, -⟩ :=
    fragmentation_is_invisible greetingCodec (fun _ _ => some ()) () greetingStream
  obtain ⟨-, delivered, -⟩ := nodes 2 greetingArrivals calm
  obtain ⟨single, ends⟩ := clients 200 _ bytes
  rw [countP_replicate, length_replicate] at ends
  generalize reads greetingCodec (fun _ _ => some ()) 2
    { unread := greetingStream, arrivals := greetingArrivals } { handler := () } = node
    at computed delivered ⊢
  generalize FrameReader.reads greetingCodec 200
    { unread := greetingStream, arrivals := replicate 200 (.ready 1) } {} = client
    at single ends ⊢
  have found := computed node rfl
  rw [found.2] at delivered
  refine ⟨found, delivered nofun, ?_⟩
  rw [← found.1]
  exact unique single (delivered nofun) (ends short le_rfl) (.inr rfl)

end Kcf.Network.Control
