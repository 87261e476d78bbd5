import Kcf.Wire.Decoder

/-!
# Streams that arrive in fragments

A front function that looks at nothing behind the piece it takes gives the same
values however its input is cut: those of the longest prefix of the stream that
consists of accepted pieces.
-/

namespace Kcf.Wire

open List

variable {ε α β : Type}

/-! ## Decoders of fixed size -/

/-- The decoder looks at the first `size` bytes only, and takes them. -/
def Fixed (size : Nat) (decoder : Decoder ε α) : Prop :=
  ∀ bytes : Bytes, size ≤ bytes.length →
    (∃ error, ∀ more, decoder (bytes ++ more) = .error error) ∨
      ∃ value, ∀ more, decoder (bytes ++ more) = .ok (value, bytes.drop size ++ more)

namespace Fixed

variable {size later : Nat} {decoder : Decoder ε α} {next : α → Decoder ε β}

theorem pure (value : α) : Fixed 0 (Pure.pure value : Decoder ε α) := fun _ _ =>
  .inr ⟨value, fun _ => rfl⟩

theorem require (error : ε) (condition : Prop) [Decidable condition] :
    Fixed 0 (Decoder.require error condition) := by
  intro bytes _
  unfold Decoder.require
  by_cases holds : condition
  · exact .inr ⟨(), fun more => if_pos holds⟩
  · exact .inl ⟨error, fun more => if_neg holds⟩

theorem take (short : ε) (count : Nat) : Fixed count (Decoder.take short count) := by
  intro bytes long
  refine .inr ⟨bytes.take count, fun more => ?_⟩
  have enough : count ≤ (bytes ++ more).length := by
    rw [length_append]
    omega
  rw [Decoder.take, if_pos enough, take_append_of_le_length long, drop_append_of_le_length long]

/-- Sequencing rule. -/
theorem bind (first : Fixed size decoder) (second : ∀ value, Fixed later (next value)) :
    Fixed (size + later) (decoder >>= next) := by
  intro bytes long
  have split : ∀ more, (decoder >>= next) (bytes ++ more) =
      (decoder (bytes ++ more) >>= fun pair => next pair.1 pair.2) := fun _ => rfl
  obtain ⟨error, failed⟩ | ⟨value, read⟩ := first bytes (by omega)
  · refine .inl ⟨error, fun more => ?_⟩
    rw [split, failed]
    rfl
  · have rest : later ≤ (bytes.drop size).length := by
      rw [length_drop]
      omega
    obtain ⟨error, failed⟩ | ⟨result, second⟩ := second value (bytes.drop size) rest
    · refine .inl ⟨error, fun more => ?_⟩
      rw [split, read]
      exact failed more
    · refine .inr ⟨result, fun more => ?_⟩
      rw [split, read, ← drop_drop]
      exact second more

theorem map (first : Fixed size decoder) (convert : α → β) : Fixed size (convert <$> decoder) := by
  intro bytes long
  have split : ∀ more, (convert <$> decoder) (bytes ++ more) =
      (decoder (bytes ++ more) >>= fun pair => Except.ok (convert pair.1, pair.2)) := fun _ => rfl
  obtain ⟨error, failed⟩ | ⟨value, read⟩ := first bytes long
  · refine .inl ⟨error, fun more => ?_⟩
    rw [split, failed]
    rfl
  · refine .inr ⟨convert value, fun more => ?_⟩
    rw [split, read]
    rfl

theorem number (short : ε) (width : Nat) : Fixed width (Decoder.number short width) :=
  (Fixed.take short width).map _

end Fixed

/-! ## Longest prefixes -/

/-- The byte string consists of accepted pieces. -/
def Concatenation (accepts : Bytes → α → Prop) (bytes : Bytes) (values : List α) : Prop :=
  ∃ pieces : List Bytes, bytes = pieces.flatten ∧ Forall₂ accepts pieces values

/-- The longest prefix of a stream that consists of accepted pieces. -/
structure Longest (accepts : Bytes → α → Prop) (stream front : Bytes) (values : List α) : Prop where
  start : front <+: stream
  pieces : Concatenation accepts front values
  longest : ∀ other others, other <+: stream → Concatenation accepts other others →
    other.length ≤ front.length

/-- The front takes accepted pieces, and no byte behind a piece changes what it says. -/
structure Recognises (front : Bytes → Front α) (accepts : Bytes → α → Prop) : Prop where
  frame : ∀ {input rest : Bytes} {value : α}, front input = .frame value rest →
    ∃ piece, input = piece ++ rest ∧ accepts piece value
  piece : ∀ {piece : Bytes} {value : α} (more : Bytes), accepts piece value →
    front (piece ++ more) = .frame value more
  bad : ∀ {input : Bytes} (more : Bytes), front input = .bad → front (input ++ more) = .bad

/-- Values that are taken off the bytes one after another, and the bytes behind them. -/
inductive Parses (front : Bytes → Front α) : Bytes → List α → Bytes → Prop where
  | done (input : Bytes) : Parses front input [] input
  | step {input rest last : Bytes} {value : α} {values : List α} :
      front input = .frame value rest → Parses front rest values last →
        Parses front input (value :: values) last

namespace Parses

variable {front : Bytes → Front α} {accepts : Bytes → α → Prop}
variable {input last : Bytes} {values : List α}

theorem snoc (parsed : Parses front input values last) {rest : Bytes} {value : α}
    (taken : front last = .frame value rest) : Parses front input (values ++ [value]) rest := by
  induction parsed with
  | done input => exact .step taken (.done rest)
  | step first _ ih => exact .step first (ih taken)

/-- Values that are taken are the first of those taken until nothing more can be. -/
theorem remaining (parsed : Parses front input values last) {behind : Bytes} {others : List α}
    (stuck : ∀ value rest, front behind ≠ .frame value rest)
    (all : Parses front input others behind) :
    ∃ later, others = values ++ later ∧ Parses front last later behind := by
  induction parsed generalizing others with
  | done input => exact ⟨others, rfl, all⟩
  | step first _ ih =>
    cases all with
    | done => exact absurd first (stuck _ _)
    | step taken rest =>
      cases first.symm.trans taken
      simpa using ih rest

section

variable (recognises : Recognises front accepts) (parsed : Parses front input values last)
include recognises parsed

/-- What was taken is taken also when more bytes have arrived. -/
theorem append (more : Bytes) : Parses front (input ++ more) values (last ++ more) := by
  induction parsed with
  | done input => exact .done _
  | step first _ ih =>
    obtain ⟨piece, rfl, accepted⟩ := recognises.frame first
    rw [append_assoc]
    exact .step (recognises.piece _ accepted) ih

/-- The values that were taken are pieces at the start of the bytes. -/
theorem concatenation : ∃ start, input = start ++ last ∧ Concatenation accepts start values := by
  induction parsed with
  | done input => exact ⟨[], rfl, [], rfl, .nil⟩
  | step first _ ih =>
    obtain ⟨piece, rfl, accepted⟩ := recognises.frame first
    obtain ⟨start, rfl, pieces, rfl, all⟩ := ih
    exact ⟨piece ++ pieces.flatten, (append_assoc ..).symm, piece :: pieces, rfl,
      .cons accepted all⟩

/-- No pieces at the start of the bytes go beyond what was taken, once nothing can be taken. -/
theorem beyond
    (stuck : ∀ value rest, front last ≠ .frame value rest) {other : Bytes} {others : List α}
    (start : other <+: input) (pieces : Concatenation accepts other others) :
    other.length + last.length ≤ input.length := by
  obtain ⟨pieces, rfl, all⟩ := pieces
  induction all generalizing input values with
  | nil =>
    obtain ⟨begin, rfl, -⟩ := parsed.concatenation recognises
    simp
  | cons accepted _ ih =>
    obtain ⟨rest, rfl⟩ := start
    rw [flatten_cons, append_assoc] at parsed ⊢
    cases parsed with
    | done => exact absurd (recognises.piece _ accepted) (stuck _ _)
    | step first tail =>
      rw [recognises.piece _ accepted] at first
      cases first
      have shorter := ih tail (prefix_append _ _)
      simp only [length_append] at shorter ⊢
      omega

/-- What was taken when nothing more can be taken is the longest prefix. -/
theorem longest
    (stuck : ∀ value rest, front last ≠ .frame value rest) :
    ∃ start, input = start ++ last ∧ Longest accepts input start values := by
  obtain ⟨start, rfl, pieces⟩ := parsed.concatenation recognises
  refine ⟨start, rfl, prefix_append _ _, pieces, fun other others before made => ?_⟩
  have bound := parsed.beyond recognises stuck before made
  rw [length_append] at bound
  omega

end

end Parses

/-- The pieces of a byte string are determined. -/
theorem Concatenation.unique {front : Bytes → Front α} {accepts : Bytes → α → Prop}
    (recognises : Recognises front accepts) (nonempty : ∀ value, ¬accepts [] value)
    {bytes : Bytes} {values others : List α} (first : Concatenation accepts bytes values)
    (second : Concatenation accepts bytes others) : values = others := by
  obtain ⟨pieces, rfl, all⟩ := first
  obtain ⟨parts, same, rest⟩ := second
  induction all generalizing parts others with
  | nil =>
    cases rest with
    | nil => rfl
    | cons accepted _ =>
      obtain ⟨rfl, -⟩ := append_eq_nil_iff.mp same.symm
      exact absurd accepted (nonempty _)
  | @cons piece value pieces values accepted _ ih =>
    cases rest with
    | nil =>
      obtain ⟨rfl, -⟩ := append_eq_nil_iff.mp same
      exact absurd accepted (nonempty _)
    | cons known later =>
      have taken := recognises.piece pieces.flatten accepted
      rw [← flatten_cons, same, flatten_cons, recognises.piece _ known] at taken
      obtain ⟨rfl, tail⟩ := Front.frame.inj taken
      rw [ih _ tail.symm later]

/-- There is one longest prefix, with one sequence of values. -/
theorem Longest.unique {front : Bytes → Front α} {accepts : Bytes → α → Prop}
    (recognises : Recognises front accepts) (nonempty : ∀ value, ¬accepts [] value)
    {stream start other : Bytes} {values others : List α}
    (first : Longest accepts stream start values) (second : Longest accepts stream other others) :
    start = other ∧ values = others := by
  have same : start.length = other.length :=
    le_antisymm (second.longest _ _ first.start first.pieces)
      (first.longest _ _ second.start second.pieces)
  have equal : start = other :=
    (prefix_of_prefix_length_le first.start second.start same.le).eq_of_length same
  subst equal
  exact ⟨rfl, first.pieces.unique recognises nonempty second.pieces⟩

end Kcf.Wire
