import PushGateway.Inbound

namespace PushGateway.Inbound

/-- The bytes that come before the stream ends or fails. Interrupted reads are no failure. -/
def content : Inbound → Bytes
  | [] => []
  | .bytes bytes :: later => bytes ++ content later
  | .failure error _ :: later => if error.kind = .interrupted then content later else []
  | .ending :: _ => []

/-- The failure behind them, if it is not the end of the stream. -/
def stop : Inbound → Option IoError
  | [] => none
  | .bytes _ :: later => stop later
  | .failure error _ :: later => if error.kind = .interrupted then stop later else some error
  | .ending :: _ => none

/-- What it comes to when a buffer for `want` bytes is filled, of a stream with this content. -/
inductive Filled (content : Bytes) (stop : Option IoError) (want : Nat) : Except IoError Bytes → Inbound → Prop
  | full {rest : Inbound} : want ≤ content.length → rest.content = content.drop want → rest.stop = stop →
      Filled content stop want (.ok (content.take want)) rest
  | ended {rest} : content.length < want → stop = none → Filled content stop want (.ok content) rest
  | failed {error rest} : content.length < want → stop = some error → Filled content stop want (.error error) rest

theorem fill_zero (inbound : Inbound) : inbound.fill 0 = (.ok [], inbound) := by
  cases inbound <;> rfl

theorem fill_bytes {want : Nat} (positive : want ≠ 0) {bytes : Bytes} (within : bytes.length ≤ want)
    (later : Inbound) : fill want (.bytes bytes :: later) =
      ((fill (want - bytes.length) later).1.map (bytes ++ ·), (fill (want - bytes.length) later).2) := by
  simp only [fill, if_neg positive, if_neg (show ¬ want < bytes.length by omega)]
  split <;> rename_i filled <;> rw [filled] <;> rfl

theorem Filled.behind {bytes content : Bytes} {stop : Option IoError} {rest : Inbound} {want : Nat}
    {answer : Except IoError Bytes} (within : bytes.length ≤ want)
    (filled : Filled content stop (want - bytes.length) answer rest) :
    Filled (bytes ++ content) stop want (answer.map (bytes ++ ·)) rest := by
  have length : (bytes ++ content).length = bytes.length + content.length := List.length_append
  cases filled with
  | full enough left same =>
    have taken : bytes ++ content.take (want - bytes.length) = (bytes ++ content).take want := by
      rw [List.take_append, List.take_of_length_le within]
    simp only [Except.map, taken]
    refine .full (by omega) ?_ same
    rw [left, List.drop_append, List.drop_of_length_le within, List.nil_append]
  | ended few ends => exact .ended (by omega) ends
  | failed few fails => exact .failed (by omega) fails

theorem filled (want : Nat) (inbound : Inbound) :
    Filled inbound.content inbound.stop want (inbound.fill want).1 (inbound.fill want).2 := by
  induction inbound generalizing want with
  | nil =>
    rcases Nat.eq_zero_or_pos want with rfl | positive
    · exact .full (Nat.le_refl 0) rfl rfl
    · exact .ended positive rfl
  | cons arrival later ih =>
    rcases Nat.eq_zero_or_pos want with rfl | positive
    · rw [fill_zero]
      exact .full (Nat.zero_le _) rfl rfl
    have some : want ≠ 0 := by omega
    cases arrival with
    | bytes bytes =>
      by_cases longer : want < bytes.length
      · have taken : bytes.take want = (content (.bytes bytes :: later)).take want :=
          (List.take_append_of_le_length (Nat.le_of_lt longer)).symm
        simp only [fill, if_neg some, if_pos longer, taken]
        refine .full ?_ ?_ rfl
        · rw [content, List.length_append]
          omega
        · rw [content, content, List.drop_append_of_le_length (Nat.le_of_lt longer)]
      · rw [fill_bytes some (by omega)]
        exact (ih (want - bytes.length)).behind (by omega)
    | failure error closing =>
      simp only [fill, content, stop, if_neg some]
      split
      · exact ih want
      · exact .failed positive rfl
    | ending =>
      simp only [fill, if_neg some]
      exact .ended positive rfl

end PushGateway.Inbound
