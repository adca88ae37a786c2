import Mathlib.Tactic

/-!
Assignment 2, `networkMonitor.cpp`: the messages that `handle_client_message`
knows, and what it does with each.
-/

namespace Unx511.Assignment2

/-- A message that `handle_client_message` acts on. -/
inductive Request where
  | ready
  | monitoring
  | linkDown
  | done
  deriving DecidableEq, Repr

namespace Request

def text : Request → String
  | ready => "Ready"
  | monitoring => "Monitoring"
  | linkDown => "Link Down"
  | done => "Done"

/-- The comparisons of `handle_client_message`; any other message is unknown. -/
def ofMessage (message : String) : Option Request :=
  if message = "Ready" then some ready
  else if message = "Monitoring" then some monitoring
  else if message = "Link Down" then some linkDown
  else if message = "Done" then some done
  else none

/-- What `handle_client_message` sends back. -/
def reply : Request → Option String
  | ready => some "Monitor"
  | linkDown => some "Set Link Up"
  | monitoring | done => none

theorem ofMessage_text (m : Request) : ofMessage m.text = some m := by
  cases m <;> rfl

theorem ofMessage_eq_some_iff {message : String} {m : Request} :
    ofMessage message = some m ↔ message = m.text := by
  constructor
  · intro h
    unfold ofMessage at h
    split at h
    case isTrue hready =>
      cases h
      exact hready
    split at h
    case isTrue hmonitoring =>
      cases h
      exact hmonitoring
    split at h
    case isTrue hdown =>
      cases h
      exact hdown
    split at h
    case isTrue hdone =>
      cases h
      exact hdone
    cases h
  · rintro rfl
    exact ofMessage_text m

end Request

end Unx511.Assignment2
