import SchemaDiagram.Decimal.Text
import SchemaDiagram.Repository.Basic

/-!
The texts of several files, read by a number of workers within a time limit. Workers take the paths
in order; a late path keeps its worker until the time is up, and all others are read before the wait for
them begins.
-/

namespace SchemaDiagram

open Repository (Delivery)

inductive Seconds where
  | whole (n : Int)
  | binary (x : Binary64)
  deriving DecidableEq, Repr

namespace Seconds

def text : Seconds → String
  | .whole n => String.ofList (intText n)
  | .binary x => String.ofList x.text

/-- Clocks count nanoseconds, up to but not including this many. -/
def clockRange : Nat :=
  Nat.pow 2 63

def excess? : Seconds → Option String
  | .whole n =>
      if (clockRange : Int) ≤ n * 1000000000 then
        some "timestamp too large to convert to C _PyTime_t"
      else none
  | .binary x =>
      if (x.scale (.ofInt 1000000000)).isAtLeast clockRange then
        some "timestamp out of range for platform time_t"
      else none

end Seconds

namespace Fetching

def topic : String := "pipeline"

def isLate : Delivery → Bool
  | .late => true
  | _ => false

def workersFor (workers : Nat) (paths : List String) : Nat :=
  max 1 (min workers paths.length)

theorem workersFor_pos (workers : Nat) (paths : List String) : 0 < workersFor workers paths := by
  simp only [workersFor]
  omega

def takenBy (deliver : String → Delivery) : Nat → List String → List String
  | _, [] => []
  | 0, _ :: _ => []
  | free + 1, p :: ps =>
      p :: takenBy deliver (if isLate (deliver p) then free else free + 1) ps

theorem takenBy_prefix (deliver : String → Delivery) (free : Nat) (paths : List String) :
    takenBy deliver free paths <+: paths := by
  induction paths generalizing free with
  | nil => simp [takenBy]
  | cons p ps ih =>
      cases free with
      | zero => simp [takenBy]
      | succ free => simpa [takenBy] using ih _

theorem takenBy_of_none_late {deliver : String → Delivery} {paths : List String}
    (h : ∀ p ∈ paths, isLate (deliver p) = false) {free : Nat} (hfree : 0 < free) :
    takenBy deliver free paths = paths := by
  induction paths generalizing free with
  | nil => simp [takenBy]
  | cons p ps ih =>
      obtain ⟨free, rfl⟩ := Nat.exists_eq_succ_of_ne_zero (Nat.ne_of_gt hfree)
      have hp : isLate (deliver p) = false := h p (by simp)
      have hps : ∀ q ∈ ps, isLate (deliver q) = false := fun q hq => h q (by simp [hq])
      simp [takenBy, hp, ih hps]

def started (deliver : String → Delivery) (workers : Nat) (paths : List String) : List String :=
  takenBy deliver (workersFor workers paths) paths

theorem started_of_none_late {deliver : String → Delivery} {paths : List String}
    (h : ∀ p ∈ paths, isLate (deliver p) = false) (workers : Nat) :
    started deliver workers paths = paths :=
  takenBy_of_none_late h (workersFor_pos workers paths)

def completed (deliver : String → Delivery) (workers : Nat) (paths : List String) : List String :=
  (started deliver workers paths).filter fun p => !isLate (deliver p)

theorem completed_of_none_late {deliver : String → Delivery} {paths : List String}
    (h : ∀ p ∈ paths, isLate (deliver p) = false) (workers : Nat) :
    completed deliver workers paths = paths := by
  rw [completed, started_of_none_late h, List.filter_eq_self]
  exact fun p hp => by simp [h p hp]

def textOf : Delivery → String
  | .text content => content
  | _ => ""

def content (deliver : String → Delivery) (workers : Nat) (paths : List String)
    (path : String) : String :=
  if path ∈ started deliver workers paths then textOf (deliver path) else ""

theorem content_of_none_late {deliver : String → Delivery} {paths : List String}
    (h : ∀ p ∈ paths, isLate (deliver p) = false) (workers : Nat) {path : String}
    (hp : path ∈ paths) : content deliver workers paths path = textOf (deliver path) := by
  simp [content, started_of_none_late h, hp]

def failureLog? (deliver : String → Delivery) (path : String) : Option Log.Entry :=
  match deliver path with
  | .failed reason =>
      some ⟨.debug, topic, "Fetch failed for " ++ path ++ ": " ++ reason, "MainThread"⟩
  | _ => none

def waitFault? (timeout : Option Seconds) (done total : Nat) : Option String :=
  if done = total then none else timeout.bind Seconds.excess?

theorem waitFault?_self (timeout : Option Seconds) (total : Nat) :
    waitFault? timeout total total = none := by
  rw [waitFault?, if_pos rfl]

def timeoutText : Option Seconds → String
  | none => "None"
  | some t => t.text

def timeoutLogs (timeout : Option Seconds) (done total : Nat) : Logs :=
  if done = total then []
  else
    [⟨.warning, topic,
      "Fetch timed out after " ++ timeoutText timeout ++ "s; continuing with " ++ Nat.repr done ++
        " of " ++ Nat.repr total ++ " files", "MainThread"⟩]

def logs (r : Repository) (workers : Nat) (timeout : Option Seconds) (paths : List String) :
    Logs :=
  let taken := started r.deliver workers paths
  taken.flatMap r.deliveryLogs ++
    timeoutLogs timeout (completed r.deliver workers paths).length paths.length ++
    taken.filterMap (failureLog? r.deliver)

end Fetching

end SchemaDiagram
