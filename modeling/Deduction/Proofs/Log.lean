import Deduction.Check.Proof
import Mathlib.Algebra.BigOperators.Group.List.Basic
import Mathlib.Algebra.Order.Ring.Int

/-!
# The log agrees with the result

A check leaves diagnostics and a log of what happened.  Every diagnostic is
recorded in the log when it is found.  The records of a conditional proof, from
the one that it was entered to the one that it was left, are nested like
brackets, and the last of them counts the diagnostics recorded in between.

The invariant is the grammar of such logs, `Nested`: below `k` open conditional
proofs a log is a sequence of single records and of whole blocks, and a block
holds a log below `k + 1`.  Findings that are joined keep it.  What the log says
about brackets, depths and counts is then read off the grammar at any record.
-/

namespace Deduction

namespace Event

/-- The diagnostic that a record is about. -/
def diagnostic? : Event → Option Diagnostic
  | reported d => some d
  | _ => none

/-- A record of a diagnostic. -/
def isReport (event : Event) : Bool :=
  event.diagnostic?.isSome

/-- How a record changes the number of open conditional proofs. -/
def opening : Event → Int
  | entered .. => 1
  | left .. => -1
  | _ => 0

end Event

namespace Log

/-- The diagnostics recorded in a log. -/
def reports (log : List Event) : List Diagnostic :=
  log.filterMap Event.diagnostic?

/-- How many conditional proofs are entered in a log and not left. -/
def openCount (log : List Event) : Int :=
  (log.map Event.opening).sum

/-- Each conditional proof that is left was entered before, and each that is
entered is left. -/
def Balanced (log : List Event) : Prop :=
  openCount log = 0 ∧ ∀ first rest, log = first ++ rest → 0 ≤ openCount first

/-- **The records between the first and the last agree with the
diagnostics.** -/
structure Faithful (records : List Event) (errors : List Diagnostic) :
    Prop where
  /-- The diagnostics are recorded, in order, each once and in the words of the
  result. -/
  recorded : reports records = errors
  rendered : (records.filter Event.isReport).map Event.message =
    errors.map Diagnostic.render
  /-- No record in between is of the beginning or the end of a whole check. -/
  inside : ∀ event ∈ records, event.level = .trace
  balanced : Balanced records
  /-- A conditional proof is entered one deeper than those around it, and is
  left again. -/
  entered : ∀ first place (depth : Nat) rest,
    records = first ++ .entered place depth :: rest →
    depth = openCount first + 1 ∧
      ∃ inner count rest', rest = inner ++ .left place count :: rest' ∧
        Balanced inner
  /-- One that is left was entered, and its count is that of the diagnostics in
  between. -/
  left : ∀ first place count rest,
    records = first ++ .left place count :: rest →
    ∃ first' depth inner, first = first' ++ .entered place depth :: inner ∧
      Balanced inner ∧ count = (reports inner).length

/-- **Nested logs** below `k` open conditional proofs. -/
inductive Nested : Nat → List Event → Prop where
  | nil (k : Nat) : Nested k []
  | reported {k : Nat} {rest : List Event} (d : Diagnostic)
      (hrest : Nested k rest) :
      Nested k (.reported d :: rest)
  | judged {k : Nat} {rest : List Event} (place : Location) (rule : Rule)
      (passed : Bool) (hrest : Nested k rest) :
      Nested k (.judged place rule passed :: rest)
  | block {k : Nat} {inner rest : List Event} (place : Location)
      (hinner : Nested (k + 1) inner) (hrest : Nested k rest) :
      Nested k (.entered place (k + 1) ::
        (inner ++ .left place (reports inner).length :: rest))

variable {k : Nat} {log first rest : List Event}

/-! ## Counting -/

@[simp] theorem openCount_nil : openCount [] = 0 := rfl

@[simp] theorem openCount_cons (event : Event) (log : List Event) :
    openCount (event :: log) = event.opening + openCount log := by
  simp [openCount]

@[simp] theorem openCount_append (first rest : List Event) :
    openCount (first ++ rest) = openCount first + openCount rest := by
  simp [openCount]

@[simp] theorem reports_append (first rest : List Event) :
    reports (first ++ rest) = reports first ++ reports rest := by
  simp [reports]

/-- The reports of a log are its records of diagnostics. -/
theorem filter_isReport (log : List Event) :
    log.filter Event.isReport = (reports log).map Event.reported := by
  induction log with
  | nil => rfl
  | cons event log ih =>
    cases event <;>
      simpa [reports, Event.isReport, Event.diagnostic?, List.filter_cons,
        List.filterMap_cons] using ih

/-- Where two entries of one list stand to each other. -/
theorem append_cons_eq_append_cons {α : Type} {a b c d : List α} {x y : α}
    (h : a ++ x :: b = c ++ y :: d) :
    (∃ m, c = a ++ x :: m ∧ b = m ++ y :: d) ∨ (a = c ∧ x = y ∧ b = d) ∨
      ∃ m, a = c ++ y :: m ∧ d = m ++ x :: b := by
  rcases List.append_eq_append_iff.1 h with ⟨m, rfl, hm⟩ | ⟨m, rfl, hm⟩
  · cases m with
    | nil => simp_all
    | cons z m => simp_all
  · cases m with
    | nil => simp_all
    | cons z m => simp_all

/-! ## Reading a nested log -/

namespace Nested

/-- Nested logs may be put one after the other. -/
theorem append (h : Nested k first) (h' : Nested k rest) :
    Nested k (first ++ rest) := by
  induction h with
  | nil => exact h'
  | reported d _ ih => exact .reported d (ih h')
  | judged place rule passed _ ih => exact .judged place rule passed (ih h')
  | block place hinner _ _ ih =>
    rw [List.cons_append, List.append_assoc, List.cons_append]
    exact .block place hinner (ih h')

/-- All records of a nested log are of the lowest level. -/
theorem level_eq_trace (h : Nested k log) :
    ∀ event ∈ log, event.level = .trace := by
  induction h with
  | nil => simp
  | reported d _ ih => simpa [Event.level] using ih
  | judged place rule passed _ ih => simpa [Event.level] using ih
  | block place _ _ ihinner ihrest =>
    intro event hevent
    simp only [List.mem_cons, List.mem_append] at hevent
    rcases hevent with rfl | hevent | rfl | hevent
    · rfl
    · exact ihinner event hevent
    · rfl
    · exact ihrest event hevent

/-- In a nested log nothing stays open. -/
theorem openCount_eq_zero (h : Nested k log) : openCount log = 0 := by
  induction h with
  | nil => rfl
  | reported d _ ih => simpa [Event.opening] using ih
  | judged place rule passed _ ih => simpa [Event.opening] using ih
  | block place _ _ ihinner ihrest => simp [Event.opening, ihinner, ihrest]

/-- Up to any record no more conditional proofs are left than were entered. -/
theorem openCount_nonneg (h : Nested k log) (heq : log = first ++ rest) :
    0 ≤ openCount first := by
  induction h generalizing first rest with
  | nil =>
    obtain ⟨rfl, -⟩ := List.append_eq_nil_iff.1 heq.symm
    exact Int.le_refl 0
  | reported d _ ih | judged place rule passed _ ih =>
    rcases List.cons_eq_append_iff.1 heq with ⟨rfl, -⟩ | ⟨first', rfl, htail⟩
    · exact Int.le_refl 0
    · simpa [Event.opening] using ih htail
  | block place hinner _ ihinner ihrest =>
    rcases List.cons_eq_append_iff.1 heq with ⟨rfl, -⟩ | ⟨first', rfl, htail⟩
    · exact Int.le_refl 0
    rw [openCount_cons, Event.opening]
    rcases List.append_eq_append_iff.1 htail with ⟨m, rfl, hm⟩ | ⟨m, hm, -⟩
    · -- The inner log is over: the block is still open, or it is closed and
      -- the rest has begun.
      rw [openCount_append, hinner.openCount_eq_zero]
      rcases List.cons_eq_append_iff.1 hm with ⟨rfl, -⟩ | ⟨m', rfl, hrest⟩
      · simp
      · simpa [Event.opening] using ihrest hrest
    · have := ihinner hm
      omega

/-- Nested logs are balanced. -/
theorem balanced (h : Nested k log) : Balanced log :=
  ⟨h.openCount_eq_zero, fun _ _ => h.openCount_nonneg⟩

/-- Where a conditional proof is entered. -/
theorem entered {place : Location} {depth : Nat} (h : Nested k log)
    (heq : log = first ++ .entered place depth :: rest) :
    depth = k + openCount first + 1 ∧
      ∃ inner count rest', rest = inner ++ .left place count :: rest' ∧
        Balanced inner := by
  induction h generalizing first rest with
  | nil => simp at heq
  | reported d _ ih | judged _ _ _ _ ih =>
    rcases List.cons_eq_append_iff.1 heq with ⟨-, hhead⟩ | ⟨first', rfl, htail⟩
    · cases hhead
    · simpa [Event.opening] using ih htail
  | @block k inner rest' place' hinner hrest ihinner ihrest =>
    rcases List.cons_eq_append_iff.1 heq with
      ⟨rfl, hhead⟩ | ⟨first', rfl, htail⟩
    · cases hhead
      exact ⟨by simp, inner, _, rest', rfl, hinner.balanced⟩
    rw [openCount_cons, Event.opening]
    rcases append_cons_eq_append_cons htail with
      ⟨m, rfl, hm⟩ | ⟨-, hsame, -⟩ | ⟨m, hm, rfl⟩
    · obtain ⟨hdepth, inner', count, more, hmore, hbalanced⟩ := ihrest hm
      rw [openCount_append, openCount_cons,
        hinner.openCount_eq_zero, Event.opening]
      exact ⟨by omega, inner', count, more, hmore, hbalanced⟩
    · cases hsame
    · obtain ⟨hdepth, inner', count, more, rfl, hbalanced⟩ := ihinner hm
      refine ⟨by omega, inner', count,
        more ++ .left place' (reports inner).length :: rest', ?_, hbalanced⟩
      simp

/-- Where a conditional proof is left. -/
theorem left {place : Location} {count : Nat} (h : Nested k log)
    (heq : log = first ++ .left place count :: rest) :
    ∃ first' depth inner, first = first' ++ .entered place depth :: inner ∧
      Balanced inner ∧ count = (reports inner).length := by
  induction h generalizing first rest with
  | nil => simp at heq
  | reported d _ ih | judged _ _ _ _ ih =>
    rcases List.cons_eq_append_iff.1 heq with ⟨-, hhead⟩ | ⟨before, rfl, htail⟩
    · cases hhead
    · obtain ⟨first', depth, inner, rfl, hinner⟩ := ih htail
      exact ⟨_ :: first', depth, inner, rfl, hinner⟩
  | @block k inner rest' place' hinner hrest ihinner ihrest =>
    rcases List.cons_eq_append_iff.1 heq with ⟨-, hhead⟩ | ⟨before, rfl, htail⟩
    · cases hhead
    rcases append_cons_eq_append_cons htail with
      ⟨m, rfl, hm⟩ | ⟨rfl, hsame, -⟩ | ⟨m, hm, -⟩
    · obtain ⟨first', depth, inner', rfl, hinner'⟩ := ihrest hm
      refine ⟨.entered place' (k + 1) ::
        (inner ++ .left place' (reports inner).length :: first'),
        depth, inner', ?_, hinner'⟩
      simp
    · cases hsame
      exact ⟨[], _, _, rfl, hinner.balanced, rfl⟩
    · obtain ⟨first', depth, inner', rfl, hinner'⟩ := ihinner hm
      exact ⟨_ :: first', depth, inner', rfl, hinner'⟩

end Nested

end Log

/-! ## The log of a check -/

namespace Findings

variable {k : Nat} {a b : Findings}

/-- Findings below `k` open conditional proofs, the log of which is nested and
records their diagnostics. -/
def Logged (k : Nat) (found : Findings) : Prop :=
  Log.Nested k found.log ∧ Log.reports found.log = found.errors

theorem logged_empty (k : Nat) : Logged k {} :=
  ⟨.nil k, rfl⟩

/-- A diagnostic is recorded once. -/
theorem logged_report (k : Nat) (d : Diagnostic) : Logged k (report d) :=
  ⟨.reported d (.nil k), rfl⟩

/-- A verdict is logged without a diagnostic. -/
theorem logged_judged (k : Nat) (place : Location) (rule : Rule)
    (passed : Bool) :
    Logged k (note (.judged place rule passed)) :=
  ⟨.judged place rule passed (.nil k), rfl⟩

/-- Logged findings may be put one after the other. -/
theorem Logged.append (ha : Logged k a) (hb : Logged k b) :
    Logged k (a ++ b) := by
  refine ⟨ha.1.append hb.1, ?_⟩
  rw [log_append, Log.reports_append, ha.2, hb.2, errors_append]

/-- Findings of a conditional proof between the records that it was entered and
left. -/
theorem Logged.block (place : Location) (ha : Logged (k + 1) a) :
    Logged k (note (.entered place (k + 1)) ++ a ++
      note (.left place a.errors.length)) := by
  constructor
  · rw [← ha.2]
    exact .block place ha.1 (.nil k)
  · simp only [log_append, Log.reports_append, ha.2, errors_append]
    rfl

/-- The verdict on a step is logged. -/
theorem logged_ofCheck (k : Nat) (check : Except Diagnostic Unit) :
    Logged k (Verdict.ofCheck check).found := by
  cases check with
  | ok => exact logged_empty k
  | error d => exact logged_report k d

end Findings

open Findings

/-- The check of a hypothesis' label is logged. -/
theorem Site.logged_checkHypothesisLabel (s : Site) (k : Nat)
    (label : Option String) :
    Logged k (s.checkHypothesisLabel label) := by
  rw [checkHypothesisLabel.eq_def]
  split
  · exact logged_report k _
  · exact logged_empty k

/-- The end of a conditional proof is logged. -/
theorem Site.logged_closeConditional (s : Site) (k : Nat) (assumption : Formula)
    (last : Option Formula) (innerPassed : Bool) :
    Logged k (s.closeConditional assumption last innerPassed).found := by
  cases last with
  | none => exact logged_empty k
  | some last => exact logged_ofCheck k _

/-- The check of the label of a line is logged. -/
theorem Body.logged_checkLabel (b : Body) (k : Nat) (here : Scope) (index : Nat)
    (label : Option String) : Logged k (b.checkLabel here index label) := by
  cases label with
  | none => exact logged_empty k
  | some label =>
    rw [checkLabel]
    split
    · exact logged_empty k
    · exact logged_report k _

/-- The check of the last line is logged. -/
theorem logged_checkLast (k : Nat) (location : Location) (proposition : Formula)
    (lines : List Line) : Logged k (checkLast location proposition lines) := by
  rw [checkLast]
  split
  · exact logged_report k _
  · split
    · exact logged_empty k
    · exact logged_report k _

/-- **A conditional proof is logged** if its lines are, one level deeper. -/
theorem logged_judge_conditionalProof {s : Site} {hypothesis : Hypothesis}
    {lines : List Line}
    (hlines : ∀ b : Body, Logged b.depth (checkLines b 0 [] lines)) :
    Logged s.depth (judge s (.conditionalProof hypothesis lines)).found := by
  rw [judge]
  split
  · exact logged_report _ _
  next assumption hopen =>
    have hlabel := s.logged_checkHypothesisLabel s.depth hypothesis.label
    have hblock := (hlines
      (s.conditionalBody hypothesis.label assumption)).block s.reasonPlace
    have hclose := s.logged_closeConditional s.depth assumption
      (lines.getLast?.bind Line.formula)
      (checkLines (s.conditionalBody hypothesis.label assumption) 0 []
        lines).errors.isEmpty
    have hall := (hlabel.append hblock).append hclose
    simpa only [Findings.append_assoc] using hall

mutual

/-- **The findings of a reason are logged**, below the conditional proofs around
its line. -/
theorem logged_judge :
    ∀ (reason : Reason) (s : Site), Logged s.depth (judge s reason).found
  | .add _, s | .rename .., s | .modusPonens .., s | .substFree .., s
  | .substPredicate .., s | .substFunction .., s
  | .universal .., s | .existential .., s => by
    rw [judge]
    exact logged_ofCheck _ _
  | .conditionalProof _ lines, _ =>
    logged_judge_conditionalProof fun b => logged_checkLines lines b 0 []

/-- **The findings of lines are logged.** -/
theorem logged_checkLines :
    ∀ (lines : List Line) (b : Body) (index : Nat) (here : Scope),
    Logged b.depth (checkLines b index here lines)
  | [], b, _, _ => by
    rw [checkLines]
    exact logged_empty b.depth
  | ⟨_, none, _⟩ :: rest, b, index, here => by
    rw [checkLines]
    exact (logged_report _ _).append (logged_checkLines rest b (index + 1) here)
  | ⟨_, some _, none⟩ :: rest, b, index, here => by
    rw [checkLines]
    exact (logged_report _ _).append (logged_checkLines rest b (index + 1) here)
  | ⟨label, some formula, some reason⟩ :: rest, b, index, here => by
    rw [checkLines]
    refine ((b.logged_checkLabel _ here index label).append ?_).append
      (logged_checkLines rest b (index + 1) _)
    split
    · exact logged_report _ _
    · exact (logged_judge reason (b.site here index label formula)).append
        (logged_judged _ _ _ _)

end

/-- Findings outside all conditional proofs have a faithful log. -/
theorem Findings.Logged.faithful {found : Findings} (h : Logged 0 found) :
    Log.Faithful found.log found.errors where
  recorded := h.2
  rendered := by
    rw [Log.filter_isReport, h.2, List.map_map]
    rfl
  inside := h.1.level_eq_trace
  balanced := h.1.balanced
  entered := by
    intro first place depth rest heq
    simpa using h.1.entered heq
  left := fun _ _ _ _ heq => h.1.left heq

/-- **The log agrees with the result.**  Where proofs are accepted, the log of a
check begins with the record that it began and ends with the record that it
finished, which counts the diagnostics; and what lies between is faithful to
them. -/
theorem log_agrees_with_result (setting : Setting) (location : Location)
    (proposition : Formula) (lines : List Line)
    (haccepts : setting.policy.acceptsProofs = true) :
    ∃ records, (checkProof setting location proposition lines).log =
        .checking location lines.length :: (records ++
          [.finished location
            (checkProof setting location proposition lines).errors.length]) ∧
      Log.Faithful records
        (checkProof setting location proposition lines).errors := by
  obtain ⟨found, hlogged, hcheck⟩ : ∃ found, Logged 0 found ∧
      checkProof setting location proposition lines =
        .note (.checking location lines.length) ++ found ++
          .note (.finished location found.errors.length) := by
    refine ⟨_,
      (logged_checkLines lines ⟨setting, location, [], [], 0⟩ 0 []).append
        (logged_checkLast 0 location proposition lines), ?_⟩
    rw [checkProof, if_pos haccepts]
  have herrors : (checkProof setting location proposition lines).errors =
      found.errors := by
    simp [hcheck]
  rw [herrors]
  exact ⟨found.log, by simp [hcheck], hlogged.faithful⟩

namespace UnjustifiedLine

open Formula (letter)

/-- Conditional proofs are allowed, and nothing is proved. -/
def logic : Setting where
  policy := .conditional
  rules := .allAt .conditional
  theory := {}

/-- A conditional proof inside another one, with a line that has no reason. -/
def lines : List Line :=
  [⟨none, some ((letter "A").implies ((letter "A").implies (letter "A"))),
    some (.conditionalProof ⟨none, some (letter "A")⟩
      [⟨none, some ((letter "A").implies (letter "A")),
        some (.conditionalProof ⟨some "h", some (letter "A")⟩
          [⟨none, some (letter "A"), none⟩])⟩])⟩]

/-- What the lines should prove. -/
def proposition : Formula :=
  (letter "A").implies ((letter "A").implies (letter "A"))

end UnjustifiedLine

/-- The one diagnostic lies two conditional proofs deep. -/
theorem unjustified_line_logged :
    UnjustifiedLine.logic.policy.acceptsProofs = true ∧
      ∃ records,
        (checkProof UnjustifiedLine.logic ⟨"logic", "proof"⟩
            UnjustifiedLine.proposition UnjustifiedLine.lines).log =
          .checking ⟨"logic", "proof"⟩ 1 ::
            (records ++ [.finished ⟨"logic", "proof"⟩ 1]) ∧
        Log.Faithful records
          (checkProof UnjustifiedLine.logic ⟨"logic", "proof"⟩
            UnjustifiedLine.proposition UnjustifiedLine.lines).errors :=
  ⟨rfl, log_agrees_with_result UnjustifiedLine.logic ⟨"logic", "proof"⟩
    UnjustifiedLine.proposition UnjustifiedLine.lines rfl⟩

end Deduction
