import AttributionReporting.EventReport

/-!
# Reconciling reports

`reconcile` says which reports to insert and which to delete so that the standing reports of a
source become the first of the desired ones. A report that is delivered or overdue is locked: it
stays, keeps its slot, and keeps its trigger data and bucket from being reported again. A pending
report stays when it stands for the same bucket at the same time as a report that is wanted,
whichever trigger it credits.
-/

namespace AttributionReporting

namespace EventReport

/-- Whether two reports are about the same trigger data and bucket. -/
def sameBucket (a b : EventReport) : Bool :=
  a.credited.data == b.credited.data && a.bucket.map (·.first) == b.bucket.map (·.first)

/-- Whether two reports stand for the same thing: one bucket, due at one time. -/
def sameSlot (a b : EventReport) : Bool := a.sameBucket b && a.reportTime == b.reportTime

/-- Whether a standing report can no longer be taken back. -/
def isLocked (now : Int) (r : EventReport) : Bool :=
  r.status == .delivered || decide (r.reportTime < now)

end EventReport

/-- Takes the element at `i` out of a list and puts the last one in its place. -/
def swapRemove {α : Type} (l : List α) (i : Nat) : List α :=
  match l.getLast? with
  | some last => (l.set i last).dropLast
  | none => []

/-- Matches wanted reports with pending ones. Gives the wanted reports that no pending report stands
for, and the pending reports that no wanted report needs. -/
def matchPending : List EventReport → List EventReport → List EventReport × List EventReport
  | [], pending => ([], pending)
  | r :: wanted, pending =>
    match pending.findIdx? (·.sameSlot r) with
    | some i => matchPending wanted (swapRemove pending i)
    | none =>
      let (missing, left) := matchPending wanted pending
      (r :: missing, left)

/-- The desired reports that are still to be stood for: those that no locked report covers and that
are not due in the past, as many as there is room for beside the locked ones. -/
def openReports (maxReports : Nat) (desired locked : List EventReport) (now : Int) :
    List EventReport :=
  (desired.filter fun r =>
    !locked.any (·.sameBucket r) && decide (now ≤ r.reportTime)).take (maxReports - locked.length)

/-- The reports to insert and the reports to delete. -/
def reconcile (maxReports : Nat) (desired existing : List EventReport) (now : Int) :
    List EventReport × List EventReport :=
  let standing := existing.filter (·.isStanding)
  let locked := standing.filter (·.isLocked now)
  let pending := standing.filter fun r => !r.isLocked now
  matchPending (openReports maxReports desired locked now) pending

end AttributionReporting
