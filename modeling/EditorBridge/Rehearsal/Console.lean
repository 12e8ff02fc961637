import EditorBridge.Console.Basic
import EditorBridge.Fault
import EditorBridge.Rehearsal.Basic

/-!
# A console in a rehearsal

A bridge that reads lines, with practice servers. Time goes on only while somebody waits for a line,
or while the bridge waits for its last answers at the end of its input. After a bridge has died
nothing happens any more.
-/

namespace EditorBridge

/-- A console in a rehearsal, with how many of its lines have been taken, and whether the bridge has
died. -/
structure Performance where
  rehearsal : Rehearsal Unit
  console : Console
  taken : Nat
  hasDied : Bool

namespace Performance

/-- A console that has just been set up. -/
def start (rehearsal : Rehearsal Unit) (root : String) : Performance :=
  ⟨rehearsal, .start root, 0, false⟩

/-- Lets everything happen that takes no time after something has been done with the hub and the
console. -/
def settle (p : Performance) (hub : Hub Unit) (console : Console) : Performance :=
  let rehearsal := { p.rehearsal with hub }.settle
  { p with rehearsal, console := console.collect rehearsal.hub }

/-- Does something with the hub and the console, and lets everything happen that takes no time. -/
def act (p : Performance) (deed : Hub Unit → Console → Hub Unit × Console) : Performance :=
  let (hub, console) := deed p.rehearsal.hub p.console
  p.settle hub console

/-- The bridge dies. -/
def die (p : Performance) (hub : Hub Unit) : Performance :=
  { p with rehearsal := { p.rehearsal with hub }, hasDied := true }

/-- The console takes a line, unless the bridge has died. -/
def take (p : Performance) (line : String) : Performance :=
  if p.hasDied then p
  else
    match Console.take p.rehearsal.launch p.rehearsal.now line p.rehearsal.hub p.console with
    | (hub, some console) => p.settle hub console
    | (hub, none) => p.die hub

/-- The clock comes to the next late answer or the next deadline, whichever is first. -/
def step? (p : Performance) : Option Performance :=
  let expire (deadline : Nat) : Performance :=
    { p with rehearsal := { p.rehearsal with now := max p.rehearsal.now deadline } }.act
      (Console.expire deadline)
  let arrive : Performance :=
    { p with rehearsal := p.rehearsal.step }.act fun hub console => (hub, console)
  if p.hasDied then none
  else
    match p.rehearsal.nextDue?, p.console.nextDeadline? with
    | none, none => none
    | some _, none => some arrive
    | none, some deadline => some (expire deadline)
    | some due, some deadline => some (if due < deadline then arrive else expire deadline)

/-- When the clock has something to come to next. -/
def next? (p : Performance) : Option Nat :=
  (p.rehearsal.nextDue?.toList ++ p.console.nextDeadline?.toList).min?

/-- How often the clock has something to come to. -/
def bound (p : Performance) : Nat :=
  p.rehearsal.letters.length + p.console.inquiries.length

/-- Lets the clock go on for a number of steps at most, until something is so. -/
def waitFor (isSo : Performance → Bool) : Nat → Performance → Performance
  | 0, p => p
  | bound + 1, p =>
      if isSo p then p
      else
        match p.step? with
        | some p => waitFor isSo bound p
        | none => p

/-- Lets the clock go on to a time. -/
def advance (p : Performance) (time : Nat) : Performance :=
  let p := waitFor (fun p => p.next?.all (time < ·)) p.bound p
  { p with rehearsal := { p.rehearsal with now := max p.rehearsal.now time } }

/-- The lines that have not been taken yet. -/
def waiting (p : Performance) : List String :=
  p.console.lines.drop p.taken

/-- Waits for a number of lines and takes them. -/
def read (p : Performance) (count : Nat) : Performance × List String :=
  let p := waitFor (fun p => count ≤ p.waiting.length) p.bound p
  let lines := p.waiting.take count
  ({ p with taken := p.taken + lines.length }, lines)

/-- The end of the input: the console waits for its last answers, and every server is stopped. A
bridge that has died does neither. -/
def finish (p : Performance) : Performance × List String :=
  let p := waitFor (fun p => p.console.inquiries.isEmpty) p.bound p
  let p := if p.hasDied then p else p.act fun hub console => (hub.stopAll, console)
  ({ p with taken := p.console.lines.length }, p.waiting)

/-- The code that the bridge exits with. -/
def exitCode (p : Performance) : Nat :=
  if p.hasDied then crashCode else 0

end Performance

end EditorBridge
