import YdbSdk.Data.BreadthFirst
import YdbSdk.Issues.Utf8

namespace YdbSdk.Issues

open Data

/-! # Issues as messages

Both conversions walk through the tree breadth first.  Texts are bytes; what `SanitizeNonAscii`
makes of a text that is not UTF-8 is left open. -/

abbrev Text := List Octet

structure Position where
  column : BitVec 32 := 0
  row : BitVec 32 := 0
  file : Text := []

def Position.hasValue (position : Position) : Bool := position.row ||| position.column ≠ 0

/-- Without the children; the severity is that of an error. -/
structure Issue where
  message : Text := []
  position : Position := {}
  endPosition : Position := {}
  issueCode : BitVec 32 := 0
  severity : BitVec 32 := 1

structure IssueMessage where
  position : Option Position := none
  endPosition : Option Position := none
  message : Text := []
  issueCode : BitVec 32 := 0
  severity : BitVec 32 := 0

def Issue.toMessage (issue : Issue) : IssueMessage where
  position := if issue.position.hasValue then some issue.position else none
  endPosition := if issue.endPosition.hasValue then some { issue.endPosition with file := [] } else none
  message := issue.message
  issueCode := issue.issueCode
  severity := issue.severity

def issueToMessage (topIssue : Data.Tree Issue) : Heap IssueMessage := copy {} (fun issue _ => issue.toMessage) topIssue

section

variable (escape : Text → Text)

def sanitizeNonAscii (s : Text) : Text := if isUtf8 s then s else escape s

/-- The constructor of `TPosition`. -/
def Position.make (column row : BitVec 32) (file : Text) : Position :=
  ⟨column, row, sanitizeNonAscii escape file⟩

/-- The constructors of `TIssue`. -/
def Issue.make (position endPosition : Position) (message : Text) : Issue :=
  { position, endPosition, message := sanitizeNonAscii escape message }

def Issue.addSubIssue (issue subIssue : Issue) : Issue :=
  { issue with severity := if subIssue.severity < issue.severity then subIssue.severity else issue.severity }

def Issue.setCode (issue : Issue) (issueCode severity : BitVec 32) : Issue := { issue with issueCode, severity }

def IssueMessage.toIssue (message : IssueMessage) (subMessages : Nat) : Issue :=
  let read := message.position.getD {}
  let readEnd := message.endPosition.getD {}
  let position := Position.make escape read.column read.row read.file
  let endPosition := Position.make escape readEnd.column readEnd.row []
  let issue :=
    if position.hasValue then
      if endPosition.hasValue then Issue.make escape position endPosition message.message
      else Issue.make escape position position message.message
    else Issue.make escape {} {} message.message
  (Nat.repeat (·.addSubIssue {}) subMessages issue).setCode message.issueCode message.severity

def issueFromMessage (issueMessage : Data.Tree IssueMessage) : Heap Issue :=
  copy {} (IssueMessage.toIssue escape) issueMessage

/-- Without file names that go with no coordinates or with the end. -/
def Issue.carried (issue : Issue) : Issue :=
  { issue with
    position := if issue.position.hasValue then issue.position else {}
    endPosition := { issue.endPosition with file := [] } }

/-- There are both positions or none, and the texts are UTF-8. -/
structure Issue.Plain (issue : Issue) : Prop where
  both : issue.position.hasValue = issue.endPosition.hasValue
  message : isUtf8 issue.message = true
  file : isUtf8 issue.position.file = true

theorem setCode_repeat (issue subIssue : Issue) :
    (Nat.repeat (·.addSubIssue subIssue) count issue).setCode code severity = issue.setCode code severity := by
  induction count with
  | zero => rfl
  | succ count ih => exact ih

theorem sanitizeNonAscii_eq (valid : isUtf8 s = true) : sanitizeNonAscii escape s = s := if_pos valid

theorem toIssue_toMessage {issue : Issue} (plain : issue.Plain) (subIssues) :
    issue.toMessage.toIssue escape subIssues = issue.carried := by
  obtain ⟨both, message, file⟩ := plain
  have empty : isUtf8 [] = true := rfl
  rw [IssueMessage.toIssue, setCode_repeat]
  cases value : issue.position.hasValue with
  | true =>
    have ends : { issue.endPosition with file := [] }.hasValue = true := both ▸ value
    simp only [Issue.toMessage, value, ← both, if_true, Option.getD_some, Position.make, sanitizeNonAscii_eq escape file,
      sanitizeNonAscii_eq escape empty, ends, Issue.make, sanitizeNonAscii_eq escape message, Issue.carried]
    rfl
  | false =>
    have none : issue.endPosition.row = 0 ∧ issue.endPosition.column = 0 := by
      rw [both] at value
      simpa [Position.hasValue] using value
    simp [Issue.toMessage, value, ← both, Position.make, sanitizeNonAscii_eq escape empty, Issue.make,
      sanitizeNonAscii_eq escape message, Issue.carried, Issue.setCode, none]

end

end YdbSdk.Issues
