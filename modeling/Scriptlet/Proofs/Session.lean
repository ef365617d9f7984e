import Scriptlet.Proofs.Walk.Truthful
import Scriptlet.Session
/-!
# Sessions stay within their tokens

A session may go on from wherever a failed step left the cursor, in the middle of a construct too.  No step needs more
of the cursor than that it is at a place of the tokens, and every step leaves it at one, so in a session of any steps
each report says a place of the tokens, and each diagnostic is truthful about it (`replay_truthful`).
-/
namespace Scriptlet

variable {ι : Type} [Integers ι] {fuel : Nat} {tokens : List Token}

/-- What a report says of its step is right. -/
def StepReport.Truthful (tokens : List Token) (report : StepReport ι) : Prop :=
  report.position ≤ tokens.length ∧
    ∀ f, report.verdict = .error f → f.diagnostic.Truthful tokens report.position report.store

/-- Why the step failed, if it did. -/
def StepReport.failure? (report : StepReport ι) : Option Fault :=
  match report.verdict with
  | .ok _ => none
  | .error f => some f

theorem Step.keeps_walk (step : Step ι) : (pointing tokens).Keeps (step.walk fuel) fun _ => True := by
  cases step with
  | expect t => exact (Discipline.keeps_expect t).bind fun _ _ => Discipline.keeps_pure trivial
  | evaluate active => exact (Discipline.keeps_expression active).bind fun _ _ => Discipline.keeps_pure trivial
  | statements active => exact (Discipline.keeps_statements fuel active).bind fun _ _ => Discipline.keeps_pure trivial
  | program => exact (Discipline.keeps_program fuel).bind fun _ _ => Discipline.keeps_pure trivial
  | assign name value =>
    have hwrite : Act.Points tokens (Act.write name value) := Act.points_write name value
    exact (Discipline.keeps_act hwrite.obeys).bind fun _ _ => Discipline.keeps_pure trivial

/-- A step from a place of the tokens leaves the cursor at one, and its report is right. -/
theorem Step.report_truthful {step : Step ι} {m after : Machine ι} {verdict : Except Fault (Option (Value ι))}
    (hm : m.cursor.In tokens) (hrun : (step.walk fuel).runOn m = (verdict.mapError Stop.fault, after))
    (written : List UInt8) :
    after.cursor.In tokens ∧ StepReport.Truthful tokens ⟨verdict, written, after.cursor.position, after.store⟩ := by
  have hkeeps : (pointing tokens).Keeps (step.walk fuel) fun _ => True := step.keeps_walk
  cases verdict with
  | ok value =>
    obtain ⟨-, hafter, -⟩ := hkeeps.ok ⟨hm, trivial⟩ hrun
    refine ⟨hafter, hafter.le_length, fun f hf => ?_⟩
    cases hf
  | error f =>
    obtain ⟨hafter, htruthful⟩ := hkeeps.stop ⟨hm, trivial⟩ hrun
    refine ⟨hafter, hafter.le_length, fun g hg => ?_⟩
    cases hg
    exact htruthful f rfl

theorem replay_reports {steps : List (Step ι)} {m last : Machine ι} {reports : List (StepReport ι)}
    (hm : m.cursor.In tokens) (h : replay fuel m steps = some (reports, last)) :
    reports.length = steps.length ∧ last.cursor.In tokens ∧ ∀ report ∈ reports, report.Truthful tokens := by
  induction steps generalizing m reports with
  | nil =>
    cases h
    exact ⟨rfl, hm, fun _ hmem => absurd hmem List.not_mem_nil⟩
  | cons step rest ih =>
    obtain ⟨verdict, after, others, hrun, hothers, rfl⟩ := replay_cons_eq_some h
    obtain ⟨hafter, hreport⟩ := Step.report_truthful hm hrun (after.written.toList.drop m.written.size)
    obtain ⟨hlength, hlast, hrest⟩ := ih hafter hothers
    refine ⟨by rw [List.length_cons, List.length_cons, hlength], hlast, ?_⟩
    exact List.forall_mem_cons.2 ⟨hreport, hrest⟩

/-- **Whatever a session does, and however its steps fail, the cursor stays within the tokens and every diagnostic
points at the right one of them.** -/
theorem replay_truthful {store : Store ι} {sink : Sink} {steps : List (Step ι)} {reports : List (StepReport ι)}
    {last : Machine ι} (h : replay fuel (.start tokens store sink) steps = some (reports, last)) :
    reports.length = steps.length ∧ last.cursor.position ≤ tokens.length ∧
      ∀ report ∈ reports, report.position ≤ tokens.length ∧
        ∀ f, report.verdict = .error f → f.diagnostic.Truthful tokens report.position report.store := by
  obtain ⟨hlength, hlast, hreports⟩ := replay_reports (Cursor.in_start tokens) h
  exact ⟨hlength, hlast.le_length, hreports⟩

/-- `<?php for ($i = MAX; $i <= $i; $i++) { echo $i; } $u;` with the greatest integer for `MAX`, so that its first round
ends with an overflow. -/
def overrun : List Token :=
  [.openTag, .forWord, .leftParen, .var "i", .assign, .int Int64.maxValue, .semicolon, .var "i", .lessEqual, .var "i",
    .semicolon, .var "i", .increment, .rightParen, .leftBrace, .echoWord, .var "i", .semicolon, .rightBrace, .var "u",
    .semicolon]

/-- Goes on from behind the `++` that failed, through the body of the loop to the end of the tokens. -/
def overrunSteps : List (Step Int64) :=
  [.program, .expect .rightParen, .expect .leftBrace, .statements true, .evaluate false, .expect .rightBrace,
    .statements true, .assign "u" .null, .expect .semicolon, .program]

/-- Where each step leaves the cursor, and why it fails. -/
def overrunOutcomes : List (Nat × Option Fault) :=
  [(13, some (.arithmetic .incrementOverflow 12)), (14, none), (15, none), (18, none),
    (18, some (.unexpected .term (some .rightBrace) 18)), (19, none), (20, some (.unbound "u" (some 19))), (20, none),
    (21, none), (21, some (.unexpected (.token .openTag) none 21))]

theorem replay_overrun_truthful : ∃ (reports : List (StepReport Int64)) (last : Machine Int64),
    replay 9 (.start overrun .empty {}) overrunSteps = some (reports, last) ∧
    reports.map (fun r => (r.position, r.failure?)) = overrunOutcomes ∧
    ∀ report ∈ reports, report.position ≤ overrun.length ∧
      ∀ f, report.verdict = .error f → f.diagnostic.Truthful overrun report.position report.store := by
  have hrun : (replay 9 (.start overrun .empty {}) overrunSteps).map
      (fun p => p.1.map fun r => (r.position, r.failure?)) = some overrunOutcomes := by
    decide +kernel
  obtain ⟨⟨reports, last⟩, h, houtcomes⟩ := Option.map_eq_some_iff.1 hrun
  exact ⟨reports, last, h, houtcomes, (replay_truthful h).2.2⟩

end Scriptlet
