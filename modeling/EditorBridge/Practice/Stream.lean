import EditorBridge.Practice.Server
import EditorBridge.Rpc.Frame

/-!
# The practice server on its streams

How the practice server cuts its input into messages, and what the run of such a server leaves on
its output. The cutting is its own and differs from that of the bridge: header lines end with a
carriage return and a line feed, names of headers have no case, and a stream that cannot be cut is
waited on for ever. `receive` takes the input in pieces as they come.

The server looks for a message by adding up positions and cutting parts out of the input between
them, and it comes to a fault if the end of the message has no number in 64 bits. `extract` does
this with either arithmetic. `cut` is the same without sums of machine numbers, with an outcome for
the fault.
-/

namespace EditorBridge.Practice

/-- The name of the header that gives the length, lower-case and with its colon
(`try_parse_message`). -/
def lengthName : List Char := "content-length:".toList

/-- The greatest number of 64 bits. -/
def greatestLength : Nat := UInt64.size - 1

/-- The length that the last header of that name gives (`try_parse_message`). -/
def announced? (headers : List Char) : Option Nat :=
  (Text.lines headers).foldl (fun length line =>
    if lengthName.isPrefixOf (line.map Char.toLower) then
      (Numeral.natural? (Text.trim (line.drop lengthName.length))).filter (· ≤ greatestLength)
    else length) none

/-- The position of the first empty header line (`try_parse_message`). -/
def blankLine? : List UInt8 → Option Nat
  | [] => none
  | b :: rest =>
      if [13, 10, 13, 10].isPrefixOf (b :: rest) then some 0 else (blankLine? rest).map (· + 1)

/-- The text of the message at the front of an input and the position where the message ends, if
there is one (`try_parse_message`). -/
def extract (a : Arithmetic) (input : List UInt8) : Except Fault (Option (List Char × Nat)) :=
  match blankLine? input with
  | none => .ok none
  | some headerEnd => do
      let headers ← part input 0 headerEnd
      match (Text.Utf8.decode? headers).bind announced? with
      | none => .ok none
      | some length =>
          let start ← a.add headerEnd 4
          let total ← a.add start length
          if input.length < total then .ok none
          else
            let body ← part input start total
            .ok ((Text.Utf8.decode? body).map fun text => (text, total))

/-- What the start of an input holds (`try_parse_message`): no whole message yet, the text of a
message and what follows it, or a length that no memory can hold. -/
inductive Cut where
  | incomplete
  | message (text : List Char) (rest : List UInt8)
  | overflow

/-- The parts of an input before and after the first empty header line (`try_parse_message`). -/
def splitHeaders? : List UInt8 → Option (List UInt8 × List UInt8)
  | [] => none
  | b :: rest =>
      match b, rest with
      | 13, 10 :: 13 :: 10 :: rest => some ([], rest)
      | _, _ => (splitHeaders? rest).map fun (before, after) => (b :: before, after)

/-- Cuts the first message off an input (`try_parse_message`). -/
def cut (input : List UInt8) : Cut :=
  match splitHeaders? input with
  | none => .incomplete
  | some (headers, rest) =>
      match (Text.Utf8.decode? headers).bind announced? with
      | none => .incomplete
      | some length =>
          if greatestLength < headers.length + 4 + length then .overflow
          else if rest.length < length then .incomplete
          else
            match Text.Utf8.decode? (rest.take length) with
            | some text => .message text (rest.drop length)
            | none => .incomplete

theorem length_splitHeaders?_lt {s before after : List UInt8}
    (h : splitHeaders? s = some (before, after)) : after.length < s.length := by
  induction s generalizing before after with
  | nil => simp [splitHeaders?] at h
  | cons b s ih =>
      unfold splitHeaders? at h
      split at h
      · obtain ⟨_, rfl⟩ := Prod.mk.inj (Option.some.inj h)
        simp
        omega
      · cases hs : splitHeaders? s with
        | none => simp [hs] at h
        | some found =>
            obtain ⟨first, second⟩ := found
            simp only [hs, Option.map_some, Option.some.injEq, Prod.mk.injEq] at h
            obtain ⟨_, rfl⟩ := h
            have := ih hs
            simp only [List.length_cons]
            omega

theorem length_cut_lt {input rest : List UInt8} {text : List Char}
    (h : cut input = .message text rest) : rest.length < input.length := by
  unfold cut at h
  split at h
  · exact absurd h (by simp)
  · next headers after hs =>
      have := length_splitHeaders?_lt hs
      split at h
      · exact absurd h (by simp)
      · split at h
        · exact absurd h (by simp)
        · split at h
          · exact absurd h (by simp)
          · split at h
            · obtain ⟨_, rfl⟩ := Cut.message.inj h
              simp only [List.length_drop]
              omega
            · exact absurd h (by simp)

/-- A running practice server (`MockServer::run`): the server, the input that has not been taken
yet, and the code it has exited with, if it has. -/
structure Running where
  server : Server
  input : List UInt8
  exitCode : Option Nat

namespace Running

/-- A server that has just started. -/
def start (options : Options) : Running :=
  ⟨.start options, [], none⟩

/-- The code of the exit among some acts (`MockServer::send_response`). -/
def exitIn (acts : List Act) : Option Nat :=
  acts.findSome? fun
    | .exit code => some code
    | _ => none

/-- Takes every whole message of an input (`MockServer::run`). A text that is no message is passed
over. -/
def drain (server : Server) (input : List UInt8) : Running × List Act :=
  match _h : cut input with
  | .incomplete => (⟨server, input, none⟩, [])
  | .overflow => (⟨server, input, some crashCode⟩, [.exit crashCode])
  | .message text rest =>
      match Message.parse? text with
      | none => drain server rest
      | some message =>
          let (server, acts) := server.handle message
          match exitIn acts with
          | some code => (⟨server, rest, some code⟩, acts)
          | none =>
              let (p, more) := drain server rest
              (p, acts ++ more)
termination_by input.length
decreasing_by
  all_goals exact length_cut_lt _h

/-- Takes one more piece of input (`MockServer::run`). -/
def receive (p : Running) (piece : List UInt8) : Running × List Act :=
  match p.exitCode with
  | some _ => (p, [])
  | none => drain p.server (p.input ++ piece)

/-- A message as the server writes it (`write_framed`). -/
def frame (options : Options) (message : Json) : List Char :=
  (List.replicate options.blankLines ['\r', '\n']).flatten ++ Rpc.Frame.encode message

/-- What the server has written by the end of its input, and its exit code then (`MockServer::run`).
Late answers are lost. -/
def run (options : Options) (input : List UInt8) : List Json × Nat :=
  let (p, acts) := (start options).receive input
  (acts.filterMap fun
    | .write message => some message
    | _ => none, p.exitCode.getD 0)

end Running

end EditorBridge.Practice
