import EditorBridge.Channel.Exchange
import EditorBridge.Rpc.Frame

/-!
# The reader of a channel

The reader takes one frame after the other off the output of a server and publishes it. Empty
frames are passed over. At a blank line the reader looks whether the server has exited, and stops if
so. It stops for good at the end of the output, and at anything that is no frame, for then it cannot
tell where the next one starts. `Reader.arrivals` is what a reader publishes of an output that comes
to its end while the server is still there.
-/

namespace EditorBridge.Channel.Reader

/-- One turn of a reader: it publishes a message and goes on with the rest of the output, or it goes
on without one, or it stops. A broken output costs the server its life. -/
inductive Turn where
  | publish (value : Json) (rest : List UInt8)
  | pass (rest : List UInt8)
  | stop (isBroken : Bool)

/-- The next turn of a reader that finds this output, and the server exited or not
(`ProcessTransport::reader_task`). -/
def turn (hasExited : Bool) (output : List UInt8) : Turn :=
  match Rpc.Frame.read output with
  | .ok (.message value, rest) => .publish value rest
  | .ok (.empty, rest) => .pass rest
  | .ok (.idle, rest) => if hasExited then .stop false else .pass rest
  | .ok (.closed, _) => .stop false
  | .error _ => .stop true

theorem length_readHeaders_le {length : Option Nat} {s rest : List UInt8}
    {headers : Rpc.Frame.Headers} (h : Rpc.Frame.readHeaders length s = .ok (headers, rest)) :
    rest.length ≤ s.length ∧ (headers ≠ .finished → rest.length < s.length) := by
  fun_induction Rpc.Frame.readHeaders length s with
  | case1 length open_ => simp at h
  | case2 length notOpen =>
      obtain ⟨rfl, rfl⟩ := Prod.mk.inj (Except.ok.inj h)
      simp
  | case3 length b bytes line after blank =>
      obtain ⟨_, same⟩ := Prod.mk.inj (Except.ok.inj h)
      have shorter : after.length < (b :: bytes).length := Rpc.Frame.length_takeLine_lt
      rw [same] at shorter
      exact ⟨by omega, fun _ => shorter⟩
  | case4 length b bytes line after blank value found announced isLength ih =>
      have shorter : after.length < (b :: bytes).length := Rpc.Frame.length_takeLine_lt
      have := ih h
      exact ⟨by omega, fun found => by have := this.2 found; omega⟩
  | case5 => simp at h
  | case6 length b bytes line after blank notFound ih =>
      have shorter : after.length < (b :: bytes).length := Rpc.Frame.length_takeLine_lt
      have := ih h
      exact ⟨by omega, fun found => by have := this.2 found; omega⟩

theorem length_read_lt {s rest : List UInt8} {found : Rpc.FrameRead}
    (h : Rpc.Frame.read s = .ok (found, rest)) (goesOn : found ≠ .closed) :
    rest.length < s.length := by
  unfold Rpc.Frame.read at h
  split at h
  · simp at h
  · obtain ⟨rfl, _⟩ := Prod.mk.inj (Except.ok.inj h)
    exact absurd rfl goesOn
  · next headers =>
      obtain ⟨_, rfl⟩ := Prod.mk.inj (Except.ok.inj h)
      exact (length_readHeaders_le headers).2 (by simp)
  · next headers =>
      obtain ⟨_, rfl⟩ := Prod.mk.inj (Except.ok.inj h)
      exact (length_readHeaders_le headers).2 (by simp)
  · next headers =>
      have := (length_readHeaders_le headers).2 (by simp)
      split at h
      · simp at h
      · split at h
        · obtain ⟨_, rfl⟩ := Prod.mk.inj (Except.ok.inj h)
          simp only [List.length_drop]
          omega
        · simp at h

/-- The output that a turn leaves. -/
def Turn.rest? : Turn → Option (List UInt8)
  | publish _ rest | pass rest => some rest
  | stop _ => none

theorem length_turn_lt {hasExited : Bool} {output rest : List UInt8}
    (h : (turn hasExited output).rest? = some rest) : rest.length < output.length := by
  unfold turn at h
  split at h
  · next found =>
      simp only [Turn.rest?, Option.some.injEq] at h
      exact h ▸ length_read_lt found (by simp)
  · next found =>
      simp only [Turn.rest?, Option.some.injEq] at h
      exact h ▸ length_read_lt found (by simp)
  · next found =>
      split at h
      · simp [Turn.rest?] at h
      · simp only [Turn.rest?, Option.some.injEq] at h
        exact h ▸ length_read_lt found (by simp)
  · simp [Turn.rest?] at h
  · simp [Turn.rest?] at h

/-- The messages that a reader publishes, and whether it stops because the output is broken
(`ProcessTransport::reader_task`). -/
def messages (output : List UInt8) : List Json × Bool :=
  match _h : turn false output with
  | .publish value rest =>
      let (values, isBroken) := messages rest
      (value :: values, isBroken)
  | .pass rest => messages rest
  | .stop isBroken => ([], isBroken)
termination_by output.length
decreasing_by
  all_goals exact length_turn_lt (by rw [_h]; rfl)

/-- What a reader publishes of a whole output (`ProcessTransport::reader_task`): its messages, and
then that it has ended. -/
def arrivals (output : List UInt8) : List Arrival :=
  (messages output).1.map Arrival.frame ++ [.ended]

end EditorBridge.Channel.Reader
