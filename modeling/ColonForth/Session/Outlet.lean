import ColonForth.Text.Lines

/-! Where output goes. An outlet that cannot take everything takes the bytes that fit and then
refuses. Only the buffer of a device without room tells one long write from several short ones. -/
namespace ColonForth

inductive Outlet where
  /-- Takes everything. -/
  | endless
  /-- Takes `room` more bytes. -/
  | limited (room : Nat) (reason : String)
  /-- A device without any room behind a line buffer that holds `held` bytes. The device is
  tried when a line ends, when the buffer overflows and when it is flushed; a write that would fill
  the empty buffer passes it by. -/
  | exhausted (held : Nat) (reason : String)
  deriving DecidableEq

/-- What came of a write: the bytes that were taken and, after a refusal, the reason. -/
structure Delivery where
  taken : List UInt8
  outlet : Outlet
  refusal : Option String

namespace Outlet

def bufferSize : Nat :=
  1024

def put (o : Outlet) (bytes : List UInt8) : Delivery :=
  match o with
  | .endless => ⟨bytes, .endless, none⟩
  | .limited room reason =>
    if bytes.length ≤ room then ⟨bytes, .limited (room - bytes.length) reason, none⟩
    else ⟨bytes.take room, .limited 0 reason, some reason⟩
  | .exhausted held reason =>
    if Text.newlineByte ∈ bytes ∨ bufferSize < held + bytes.length ∨
        held = 0 ∧ bufferSize ≤ bytes.length then ⟨[], o, some reason⟩
    else ⟨[], .exhausted (held + bytes.length) reason, none⟩

def putAll (o : Outlet) : List (List UInt8) → Delivery
  | [] => ⟨[], o, none⟩
  | piece :: pieces =>
    let first := o.put piece
    match first.refusal with
    | some _ => first
    | none =>
      let later := first.outlet.putAll pieces
      ⟨first.taken ++ later.taken, later.outlet, later.refusal⟩

def flush (o : Outlet) : Delivery :=
  match o with
  | .exhausted (_ + 1) reason => ⟨[], o, some reason⟩
  | _ => ⟨[], o, none⟩

/-- Nothing is held back that a flush could lose. -/
def Idle (o : Outlet) : Prop :=
  o.flush = ⟨[], o, none⟩

@[simp] theorem put_endless (bytes : List UInt8) :
    put .endless bytes = ⟨bytes, .endless, none⟩ := rfl

@[simp] theorem putAll_endless (pieces : List (List UInt8)) :
    putAll .endless pieces = ⟨pieces.flatten, .endless, none⟩ := by
  induction pieces with
  | nil => rfl
  | cons piece pieces ih => simp [putAll, ih]

@[simp] theorem putAll_limited (room : Nat) (reason : String) (pieces : List (List UInt8)) :
    putAll (.limited room reason) pieces = put (.limited room reason) pieces.flatten := by
  induction pieces generalizing room with
  | nil => simp [putAll, put]
  | cons piece pieces ih =>
    rw [List.flatten_cons]
    by_cases hp : piece.length ≤ room
    · simp only [putAll, put, if_pos hp, ih, List.length_append]
      generalize pieces.flatten = rest
      by_cases hr : rest.length ≤ room - piece.length
      · rw [if_pos hr, if_pos (by omega), Nat.sub_sub]
      · rw [if_neg hr, if_neg (by omega), List.take_append, List.take_of_length_le hp]
    · have hz : room - piece.length = 0 := by omega
      have hl : ¬ (piece ++ pieces.flatten).length ≤ room := by
        rw [List.length_append]
        omega
      simp only [putAll, put, if_neg hp, if_neg hl, List.take_append, hz, List.take_zero,
        List.append_nil]

theorem idle_of_flush {o : Outlet} (h : o.flush.refusal = none) : o.Idle := by
  cases o with
  | endless => rfl
  | limited room reason => rfl
  | exhausted held reason =>
    cases held with
    | zero => rfl
    | succ held => cases h

end Outlet

end ColonForth
