import Dbmaster.Lib.Fibers
import Mathlib.Data.List.Sort
/-!
# The weekly report

The calls that generate the report of the slow queries, the ticker that starts some of
them, and the samples that are written meanwhile.  A call is a row of statements on the
database, and anything may happen between two of them.
-/

namespace Dbmaster.Reports.Writer

open Dbmaster.Lib.Fibers

/-! ## The tables -/

/-- `WINDOW_DAYS`; instants are in nanoseconds, and their RFC 3339 texts sort as they do. -/
def window : Int := 604800000000000

/-- The UTC date, the first ten characters of the text. -/
def dateOf (instant : Int) : Int := instant / 86400000000000

def topN : Nat := 10

/-- A row of `query_stats`. -/
structure Sample where
  digest : String
  dbKind : String
  connId : String
  elapsedMs : Int
  queryCount : Option Int
  status : String
  capturedAt : Int
deriving DecidableEq

/-- `COALESCE(query_count, 1)` -/
def Sample.count (sample : Sample) : Int := sample.queryCount.getD 1

def countOf (rows : List Sample) : Int := (rows.map Sample.count).sum

def elapsedOf (rows : List Sample) : Int := (rows.map Sample.elapsedMs).sum

structure Summary where
  totalSamples : Int
  distinctDigests : Nat
  totalMs : Int
  errorCount : Nat
  cancelledCount : Nat
  /-- the growth over the week before, in parts of it -/
  weekOverWeek : Option (Int × Int)

structure TopRow where
  digest : String
  dbKind : String
  connId : String
  count : Int
  totalMs : Int
  maxMs : Int
  lastSeen : Int

structure ConnectionRow where
  connId : String
  dbKind : String
  count : Int
  totalMs : Int

structure DayRow where
  date : Int
  count : Int
  totalMs : Int

structure Content where
  windowFrom : Int
  windowTo : Int
  windowTruncated : Bool
  summary : Summary
  top : List TopRow
  byConnection : List ConnectionRow
  byDay : List DayRow

/-! ## The queries -/

def rowsFrom (samples : List Sample) (start : Int) : List Sample :=
  samples.filter fun x => decide (start ≤ x.capturedAt)

def rowsBetween (samples : List Sample) (start stop : Int) : List Sample :=
  samples.filter fun x => decide (start ≤ x.capturedAt ∧ x.capturedAt < stop)

def maximum (f : Sample → Int) (rows : List Sample) : Int :=
  rows.foldl (fun m x => max m (f x)) (((rows.head?).map f).getD 0)

/-- `aggregate` by the total time. -/
def topRows (rows : List Sample) : List TopRow :=
  (((groups (fun x : Sample => (x.digest, x.dbKind, x.connId)) rows).map fun group =>
      (⟨group.1.1, group.1.2.1, group.1.2.2, countOf group.2, elapsedOf group.2,
        maximum Sample.elapsedMs group.2, maximum Sample.capturedAt group.2⟩ : TopRow)).insertionSort
    fun a b => b.totalMs < a.totalMs ∨ a.totalMs = b.totalMs ∧ b.lastSeen ≤ a.lastSeen).take topN

def connectionRows (rows : List Sample) : List ConnectionRow :=
  ((groups (fun x : Sample => (x.connId, x.dbKind)) rows).map fun group =>
      (⟨group.1.1, group.1.2, countOf group.2, elapsedOf group.2⟩ : ConnectionRow)).insertionSort
    fun a b => b.totalMs ≤ a.totalMs

def dayRows (rows : List Sample) : List DayRow :=
  ((groups (fun x : Sample => dateOf x.capturedAt) rows).map fun group =>
      (⟨group.1, countOf group.2, elapsedOf group.2⟩ : DayRow)).insertionSort
    fun a b => a.date ≤ b.date

/-- The rows that the queries of a call found.  A sum over no rows is NULL, which the total
is read from as 0 and the week before as missing. -/
structure Reads where
  total : List Sample
  previous : List Sample
  top : List Sample
  connections : List Sample
  days : List Sample

def weekOverWeek (r : Reads) : Option (Int × Int) :=
  if r.previous ≠ [] ∧ 0 < elapsedOf r.previous ∧ 0 < elapsedOf r.total then
    some (elapsedOf r.total - elapsedOf r.previous, elapsedOf r.previous)
  else none

def summaryOf (r : Reads) : Summary where
  totalSamples := countOf r.total
  distinctDigests := (r.total.map Sample.digest).dedup.length
  totalMs := elapsedOf r.total
  errorCount := (r.total.filter fun x => x.status = "error").length
  cancelledCount := (r.total.filter fun x => x.status = "cancelled").length
  weekOverWeek := weekOverWeek r

structure Window where
  windowFrom : Int
  windowTo : Int
  truncated : Bool
  /-- how many reports there were when the call looked for one -/
  seen : Nat

def contentOf (w : Window) (r : Reads) : Content where
  windowFrom := w.windowFrom
  windowTo := w.windowTo
  windowTruncated := w.truncated
  summary := summaryOf r
  top := topRows r.top
  byConnection := connectionRows r.connections
  byDay := dayRows r.days

/-- A row of `reports`, with the samples that its queries counted. -/
structure Report where
  generatedAt : Int
  content : Content
  reads : Reads

def later (latest : Option Report) (r : Report) : Option Report :=
  match latest with
  | none => some r
  | some l => if l.generatedAt < r.generatedAt then some r else some l

def latestReport (reports : List Report) : Option Report := reports.foldl later none

/-- The oldest sample in the place of the start of the window, if it is later. -/
def windowOf (samples : List Sample) (now : Int) (reads : Bool) (seen : Nat) : Window :=
  let oldest := if reads then (samples.map Sample.capturedAt).min? else none
  match oldest with
  | some o => if now - window < o then ⟨o, now, true, seen⟩ else ⟨now - window, now, false, seen⟩
  | none => ⟨now - window, now, false, seen⟩

/-! ## The calls -/

inductive Outcome
  | idle
  | reused
  | created
  | failed

/-- The statement that a call executes next. -/
inductive Phase
  /-- the ticker looks for a report, and for samples when there is none -/
  | due (horizon : Int)
  | dueSamples (horizon : Int)
  | latest (now : Int)
  | oldest (now : Int) (seen : Nat)
  | total (w : Window)
  | previous (w : Window) (r : Reads)
  | top (w : Window) (r : Reads)
  | connections (w : Window) (r : Reads)
  | days (w : Window) (r : Reads)
  | store (w : Window) (r : Reads)
  | done (outcome : Outcome)

structure State where
  samples : List Sample
  reports : List Report
  calls : List Phase

def State.initial (samples : List Sample) : State := ⟨samples, [], []⟩

/-- The statement of the phase, which succeeds or not; `now` is what the clock shows when
the ticker goes over to generating a report. -/
def advance (s : State) (phase : Phase) (ok : Bool) (now : Int) : Phase × List Report :=
  match phase with
  | .due horizon =>
      if !ok then (.done .idle, s.reports)
      else
        match latestReport s.reports with
        | some r => (if r.generatedAt ≤ horizon then .latest now else .done .idle, s.reports)
        | none => (.dueSamples horizon, s.reports)
  | .dueSamples horizon =>
      (if ok && !(rowsFrom s.samples horizon).isEmpty then .latest now else .done .idle, s.reports)
  | .latest now =>
      if !ok then (.done .failed, s.reports)
      else
        match latestReport s.reports with
        | some r =>
            (if now - window < r.generatedAt then .done .reused
              else .oldest now s.reports.length, s.reports)
        | none => (.oldest now s.reports.length, s.reports)
  | .oldest now seen => (.total (windowOf s.samples now ok seen), s.reports)
  | .total w =>
      (if ok then .previous w ⟨rowsFrom s.samples w.windowFrom, [], [], [], []⟩
        else .done .failed, s.reports)
  | .previous w r =>
      let rows := if ok then rowsBetween s.samples (w.windowFrom - window) w.windowFrom else []
      (.top w { r with previous := rows }, s.reports)
  | .top w r =>
      (if ok then .connections w { r with top := rowsFrom s.samples w.windowFrom }
        else .done .failed, s.reports)
  | .connections w r =>
      (if ok then .days w { r with connections := rowsFrom s.samples w.windowFrom }
        else .done .failed, s.reports)
  | .days w r =>
      (if ok then .store w { r with days := rowsFrom s.samples w.windowFrom }
        else .done .failed, s.reports)
  | .store w r =>
      if ok then (.done .created, s.reports ++ [⟨w.windowTo, contentOf w r, r⟩])
      else (.done .failed, s.reports)
  | .done outcome => (.done outcome, s.reports)

inductive Action
  | insertSample (sample : Sample)
  /-- the samples captured before it are deleted -/
  | rotate (threshold : Int)
  /-- the ticker wakes up -/
  | tick (now : Int)
  /-- `generate_slow_query_report` by hand -/
  | generate (now : Int)
  | advance (call : Nat) (ok : Bool) (now : Int)

def step (s : State) : Action → Option State
  | .insertSample sample => some { s with samples := s.samples ++ [sample] }
  | .rotate threshold => some { s with samples := rowsFrom s.samples threshold }
  | .tick now => some { s with calls := s.calls ++ [.due (now - window)] }
  | .generate now => some { s with calls := s.calls ++ [.latest now] }
  | .advance call ok now =>
      s.calls[call]?.map fun phase =>
        { s with
          calls := s.calls.set call (advance s phase ok now).1
          reports := (advance s phase ok now).2 }

end Dbmaster.Reports.Writer
