import LedgerDesk.Pipeline.Effects

/-!
# The guard of the waiting state

The edge into the waiting state publishes two conditions. A drafting cycle tests the one; the other
holds of every ticket it can be taken for, since a ticket with a flag never gets as far as triaged.
-/
namespace LedgerDesk.Pipeline

open Foundation Agents Ledger Drafting
open Gateway (GatewayResult)
open Tickets (TicketState UserRole GuardOwner Edge findTransition isGuardAvailable)
open Triage

/-- The states a ticket with a flag is never in. -/
def promoted : List TicketState := [.TRIAGED, .DRAFTED, .AWAITING_AGENT]

/-- The matcher raises no flag. -/
def Setting.clear (setting : Setting) (ticket : TicketRow) : Prop :=
  setting.matchPolicyFlags ticket.subject ticket.body_raw = []

/-- The cycle read this ticket, whose text is the one that is there. -/
def ReadOf (db : Database Nat) (ticket : TicketRow) : Prop :=
  ∃ row, (db.tickets ticket.id).committed = some row ∧ row.subject = ticket.subject ∧
    row.body_raw = ticket.body_raw

/-- A triage that may still end well. -/
def hopeful : Session → Option TicketRow
  | .triaging _ (.asking held) | .triaging _ (.waiting held) | .triaging _ (.failing held _)
  | .triaging _ (.settling held (.answer _ _)) => some held.ticket
  | .writing (.triage _ held _ _ (.answer _ _)) _ => some held.ticket
  | _ => none

structure Guarded (setting : Setting) (s : State) : Prop where
  keyed : ∀ k row, (s.db.tickets k).committed = some row → row.id = k
  clear : ∀ k row, (s.db.tickets k).committed = some row → row.status ∈ promoted →
    setting.clear row.toTicketRow
  sessions : ∀ i ticket, hopeful (s.sessions i) = some ticket →
    ReadOf s.db ticket ∧ setting.clear ticket

/-- How far the unit is, is no matter. -/
theorem hopeful_writing (work : Work) (phase phase' : UnitPhase) :
    hopeful (.writing work phase) = hopeful (.writing work phase') := by
  cases work with
  | triage facts held policy ledger settlement => cases settlement <;> rfl
  | _ => rfl

variable {setting : Setting} {s t : State} {act : Act} {i : Nat}

/-! ### What a triage has seen to -/

section Triage

variable {runtime : TriageRuntime}

/-- A flag fires the first clause of all. -/
theorem clear_of_silent {input : FeatureInput} {now : ℚ}
    (silent : runtime.verdictOf input now = ⟨false, none, none⟩) : input.policyFlags = [] := by
  rcases evaluateEscalation_cases runtime.tables (featuresFromTicket input).features now
    runtime.thresholds with ⟨clause, _, _, verdict⟩ | ⟨none_fires, -⟩
  · rw [TriageRuntime.verdictOf, verdict] at silent
    cases silent
  · have policy := none_fires _ List.mem_cons_self
    simp only [featuresFromTicket, decide_eq_false_iff_not, List.length_pos_iff, ne_eq,
      not_not] at policy
    exact policy

variable {facts : RuntimeFacts} {held : Standing} {ticket seen : TicketRow}

theorem hopeful_exhausted (emptied : Bool) (code : FailureCode) :
    hopeful (.triaging facts (runtime.exhausted held emptied code)) = none := by
  rw [TriageRuntime.exhausted]
  split <;> rfl

/-- A triage that goes on past the record has raised no flag. -/
theorem clear_of_start {now : ℚ} {visible fresh : Bool}
    (goes : hopeful (.triaging facts (runtime.start seen now visible fresh)) = some ticket) :
    ticket = seen ∧ runtime.matchPolicyFlags ticket.subject ticket.body_raw = [] := by
  rw [TriageRuntime.start] at goes
  split at goes
  · cases goes
  · split at goes
    · cases goes
    · split at goes
      · cases goes
      · rw [TriageRuntime.atRecord] at goes
        rcases verdictOf_cases runtime (runtime.unanswered seen seen.retries none) now with
          ⟨reason, clause, verdict⟩ | verdict
        · simp only [verdict] at goes
          split at goes <;> cases goes
        · simp only [verdict] at goes
          cases goes
          exact ⟨rfl, clear_of_silent verdict⟩

theorem hopeful_heard {reply : Reply}
    (goes : hopeful (.triaging facts (runtime.heard held reply)) = some ticket) :
    ticket = held.ticket := by
  cases reply with
  | parsed reading redactedLength =>
    cases goes
    rfl
  | malformed code =>
    cases goes
    rfl
  | foreign => cases goes
  | refused code =>
    simp only [TriageRuntime.heard] at goes
    split at goes
    · cases goes
    · split at goes
      · rw [hopeful_exhausted] at goes
        cases goes
      · split at goes
        · cases goes
        · cases goes
          rfl

theorem hopeful_bumped {code : FailureCode} {retries : Int}
    (goes : hopeful (.triaging facts (runtime.bumped held code retries)) = some ticket) :
    ticket = held.ticket := by
  rw [TriageRuntime.bumped] at goes
  split at goes
  · rw [hopeful_exhausted] at goes
    cases goes
  · cases goes
    rfl

end Triage

/-- What a session computes keeps the ticket it held, or is of the ticket it has just read. -/
theorem hopeful_advance {session : Session} {ticket : TicketRow}
    (next : advance setting s act = some (i, session)) (goes : hopeful session = some ticket) :
    hopeful (s.sessions i) = some ticket ∨
      setting.clear ticket ∧ ∃ org_id id row, s.visible org_id id = some row ∧
        ticket = row.toTicketRow := by
  cases act
  all_goals simp only [advance] at next
  case startTriage j facts id now head =>
    split at next
    · cases next
      simp only [startTriageStep] at goes
      split at goes
      · cases goes
      · next row seen =>
        obtain ⟨rfl, clear⟩ := clear_of_start goes
        exact .inr ⟨clear, _, _, row, seen, rfl⟩
    · cases next
  case ask j =>
    split at next
    · next here =>
      cases next
      rw [here]
      exact .inl goes
    · cases next
  case reply j reply =>
    split at next
    · next here =>
      cases next
      rw [here, hopeful_heard goes]
      exact .inl rfl
    · cases next
  case settle j policy ledger =>
    obtain ⟨other, settled, pair⟩ := Option.map_eq_some_iff.mp next
    cases pair
    unfold settleStep at settled
    split at settled
    · next facts held settlement here =>
      cases settled
      rw [here]
      cases settlement with
      | answer reading redactedLength => exact .inl goes
      | _ => cases goes
    · cases settled
      cases goes
    · cases settled
  case throw j =>
    split at next
    · split at next <;> cases next
      cases goes
    · split at next <;> cases next
      cases goes
    · cases next
  all_goals first
    | cases next
    | split at next <;> cases next
      cases goes

/-! ### What a step does to the tickets -/

/-- Every ticket is there still. -/
def TicketsKept (db db' : Database Nat) : Prop :=
  ∀ k row, (db.tickets k).committed = some row →
    ∃ row', (db'.tickets k).committed = some row' ∧ Keeps row row'

theorem ReadOf.mono {db db' : Database Nat} {ticket : TicketRow} (kept : TicketsKept db db')
    (read : ReadOf db ticket) : ReadOf db' ticket := by
  obtain ⟨row, stands, subject, body⟩ := read
  obtain ⟨row', stands', keeps⟩ := kept _ row stands
  exact ⟨row', stands', keeps.subject.trans subject, keeps.body_raw.trans body⟩

theorem Setting.clear_of_keeps {row row' : Ticket} (keeps : Keeps row row')
    (clear : setting.clear row.toTicketRow) : setting.clear row'.toTicketRow := by
  rw [Setting.clear, keeps.subject, keeps.body_raw]
  exact clear

namespace Guarded

/-- Rows that are what the invariant wants. -/
theorem withDb {db : Database Nat} (guarded : Guarded setting s) (kept : TicketsKept s.db db)
    (rows : ∀ k row, (db.tickets k).committed = some row →
      row.id = k ∧ (row.status ∈ promoted → setting.clear row.toTicketRow)) :
    Guarded setting { s with db } where
  keyed k row stands := (rows k row stands).1
  clear k row stands := (rows k row stands).2
  sessions i ticket goes := by
    obtain ⟨read, clear⟩ := guarded.sessions i ticket goes
    exact ⟨read.mono kept, clear⟩

theorem enter {session : Session} (guarded : Guarded setting s)
    (entered : ∀ ticket, hopeful session = some ticket → ReadOf s.db ticket ∧ setting.clear ticket) :
    Guarded setting (s.enter i session) where
  keyed := guarded.keyed
  clear := guarded.clear
  sessions j ticket goes := by
    by_cases same : j = i
    · subst same
      simp only [State.enter, Function.update_self] at goes
      exact entered ticket goes
    · simp only [State.enter, Function.update_of_ne same] at goes
      exact guarded.sessions j ticket goes

/-- A row that is written by itself. -/
theorem setTicket {k : String} {ticket : Ticket} (guarded : Guarded setting s)
    (own : ticket.id = k) (clear : ticket.status ∈ promoted → setting.clear ticket.toTicketRow)
    (keeps : ∀ row, (s.db.tickets k).committed = some row → Keeps row ticket) :
    Guarded setting (s.setTicket k ticket) := by
  apply guarded.withDb
  · intro k' row stands
    by_cases same : k' = k
    · subst same
      exact ⟨ticket, by simp only [Function.update_self], keeps row stands⟩
    · refine ⟨row, ?_, Keeps.refl row⟩
      simpa only [Function.update_of_ne same] using stands
  · intro k' row stands
    by_cases same : k' = k
    · subst same
      simp only [Function.update_self, Option.some.injEq] at stands
      subst stands
      exact ⟨own, clear⟩
    · simp only [Function.update_of_ne same] at stands
      exact ⟨guarded.keyed k' row stands, guarded.clear k' row stands⟩

/-- What nobody has committed. -/
theorem quiet {db : Database Nat} (guarded : Guarded setting s) (quiet : Quiet s.db db) :
    Guarded setting { s with db } := by
  apply guarded.withDb
  · intro k row stands
    exact ⟨row, (quiet.tickets k).trans stands, Keeps.refl row⟩
  · intro k row stands
    rw [quiet.tickets k] at stands
    exact ⟨guarded.keyed k row stands, guarded.clear k row stands⟩

end Guarded

/-- An edge that no cycle takes leads to no promoted state. -/
theorem not_promoted_of_outside {source target : TicketState} {edge : Edge}
    (found : findTransition source target = some edge) (outside : TakenOutside edge) :
    target ∉ promoted := by
  revert edge
  cases source <;> cases target <;> simp +decide [TakenOutside]

/-- A commit takes no ticket with a flag to a promoted state. -/
theorem Guarded.affects {work : Work} {phase : UnitPhase} {k : String} {row row' : Option Ticket}
    (guarded : Guarded setting s) (writing : s.sessions i = .writing work phase)
    (stands : (s.db.tickets k).committed = row) (affects : Affects setting work k row row')
    {after : Ticket} (here : row' = some after) (within : after.status ∈ promoted) :
    setting.clear after.toTicketRow := by
  cases affects with
  | elsewhere other =>
    subst here
    exact guarded.clear k after stands within
  | @moved ticket next assign about takes columns =>
    cases here
    apply Setting.clear_of_keeps takes.keeps
    rw [takes.target] at within
    cases work with
    | event content => cases about
    | triage facts held policy ledger settlement =>
      cases settlement with
      | atRecord reason clause => simp [Work.endsIn, promoted] at within
      | failure reason clause code => simp [Work.endsIn, promoted] at within
      | answer reading redactedLength =>
        -- the cycle has seen the text, and that it raises no flag
        obtain ⟨⟨row, stands', subject, body⟩, clear⟩ :=
          guarded.sessions i held.ticket (by rw [writing]; rfl)
        cases about
        rw [stands, Option.some.injEq] at stands'
        subst stands'
        rw [Setting.clear, subject, body]
        exact clear
    | draft facts held settlement =>
      cases settlement with
      | escalation features reason clause gap detail outcome => simp [Work.endsIn, promoted] at within
      | answer judged =>
        -- the ticket was triaged, and so without a flag
        have triaged : ticket.status = .TRIAGED := takes.source
        exact guarded.clear k ticket stands (by rw [triaged]; decide)

theorem Guarded.commits {work : Work} {phase : UnitPhase} {db : Database Nat}
    (guarded : Guarded setting s) (writing : s.sessions i = .writing work phase)
    (commits : CommitsProgram (work.unit setting) s.db db) : Guarded setting { s with db } := by
  have effect : ∀ k, Affects setting work k (s.db.tickets k).committed (db.tickets k).committed :=
    fun k => work_effect (commits.tickets k)
  apply guarded.withDb
  · intro k row stands
    have affects := effect k
    rw [stands] at affects
    generalize (db.tickets k).committed = row' at affects
    cases affects with
    | elsewhere other => exact ⟨row, rfl, Keeps.refl row⟩
    | moved about takes columns => exact ⟨_, rfl, takes.keeps⟩
  · intro k row' stands'
    refine ⟨?_, guarded.affects writing rfl (effect k) stands'⟩
    have affects := effect k
    generalize before : (s.db.tickets k).committed = row at affects
    rw [stands'] at affects
    cases affects with
    | elsewhere other => exact guarded.keyed k row' before
    | moved about takes columns => exact takes.keeps.id.trans (guarded.keyed k _ before)

theorem Moves.guarded (moves : Moves setting s act t) (sound : StateSound setting s)
    (guarded : Guarded setting s) : Guarded setting t := by
  cases moves with
  | @computed act i session next =>
    apply guarded.enter
    intro ticket goes
    rcases hopeful_advance next goes with held | ⟨clear, org_id, id, row, seen, rfl⟩
    · exact guarded.sessions i ticket held
    · obtain ⟨stands, -⟩ := visible_eq_some seen
      have own : row.id = id := guarded.keyed id row stands
      exact ⟨⟨row, by rw [own]; exact stands, rfl, rfl⟩, clear⟩
  | submitted fresh free =>
    refine guarded.setTicket rfl (fun within => ?_) (fun row stands => ?_)
    · simp [newTicket, promoted] at within
    · rw [fresh] at stands
      cases stands
  | @taken act id target ticket edge alone stands found outside free =>
    refine guarded.setTicket (guarded.keyed id ticket stands) ?_ ?_
    · exact fun within => absurd within (not_promoted_of_outside found outside)
    · intro row stands'
      rw [stands, Option.some.injEq] at stands'
      subst stands'
      exact ⟨rfl, rfl, rfl, rfl⟩
  | stale failing =>
    apply guarded.enter
    intro ticket goes
    cases goes
  | @bumped i facts held code ticket failing stands free =>
    have written : Guarded setting (s.setTicket held.ticket.id
        { ticket with retries := ticket.retries + 1 }) := by
      refine guarded.setTicket (guarded.keyed _ ticket stands) ?_ ?_
      · exact guarded.clear _ ticket stands
      · intro row stands'
        rw [stands, Option.some.injEq] at stands'
        subst stands'
        exact ⟨rfl, rfl, rfl, rfl⟩
    apply written.enter
    intro seen goes
    rw [hopeful_bumped goes]
    have kept : (s.setTicket held.ticket.id
        { ticket with retries := ticket.retries + 1 }).sessions i = s.sessions i := rfl
    exact written.sessions i held.ticket (by rw [kept, failing]; rfl)
  | @wrote i work phase act db phase' writing step =>
    have under := sound.sessions i
    rw [writing] at under
    obtain ⟨-, commits⟩ := unitStep_move sound.chains under step
    have written : Guarded setting { s with db } := by
      rcases commits with ⟨-, commits⟩ | ⟨-, quiet⟩
      · exact guarded.commits writing commits
      · exact guarded.quiet quiet
    apply written.enter
    intro ticket goes
    apply written.sessions i ticket
    change hopeful (s.sessions i) = some ticket
    rw [writing, ← goes]
    exact hopeful_writing work phase phase'
  | crashed live =>
    apply (guarded.quiet (quiet_rollback s.db _)).enter
    intro ticket goes
    cases goes

theorem guarded_empty : Guarded setting empty where
  keyed _ _ stands := nomatch stands
  clear _ _ stands := nomatch stands
  sessions _ _ goes := nomatch goes

theorem guarded_run {ts : List (Transition State Act)}
    (run : Run (pipelineStep setting) empty ts t) :
    (StateSound setting t ∧ Guarded setting t) ∧ ∀ tr ∈ ts,
      (StateSound setting tr.source ∧ Guarded setting tr.source) ∧
        StateSound setting tr.target ∧ Guarded setting tr.target := by
  apply run.invariant (P := fun s => StateSound setting s ∧ Guarded setting s)
  · intro s act t step both
    have moves := pipelineStep_moves step
    exact ⟨moves.sound both.1, moves.guarded both.1 both.2⟩
  · exact ⟨sound_empty, guarded_empty⟩

/-! ### The edge into the waiting state -/

/-- A cycle that takes its ticket to the waiting state has drafted, and its draft is grounded. -/
theorem drafted_of_awaiting {work : Work} (ends : work.endsIn setting = .AWAITING_AGENT) :
    ∃ facts held judged, work = .draft facts held (.answer judged) ∧
      judged.grounding.grounded = true := by
  cases work with
  | triage facts held policy ledger settlement =>
    cases settlement with
    | answer reading redactedLength =>
      rw [Work.endsIn] at ends
      split at ends <;> cases ends
    | _ => cases ends
  | event content => cases ends
  | draft facts held settlement =>
    cases settlement with
    | escalation features reason clause gap detail outcome => cases ends
    | answer judged =>
      rw [Work.endsIn] at ends
      split at ends
      · next grounded => exact ⟨facts, held, judged, rfl, grounded⟩
      · cases ends

/-- The one response of a unit that ends in the waiting state. -/
theorem responsesOf_grounded {facts : RuntimeFacts} {held : DraftStanding} {judged : Judged}
    (grounded : judged.grounding.grounded = true) :
    responsesOf ((Work.draft facts held (.answer judged)).unit setting).program =
      [Judged.response held.ticket.id judged] := by
  simp [responsesOf, Work.unit, Work.statements, Work.decisions, draftStatements, draftDecisions,
    grounded]

/-- The transaction of a drafting cycle that has judged a draft for the ticket commits. -/
def DraftCommits (s : State) (act : Act) (k : String) (judged : Judged) : Prop :=
  ∃ i step facts held phase, act = .unit i step ∧ step.commits = true ∧
    s.sessions i = .writing (.draft facts held (.answer judged)) phase ∧ held.ticket.id = k

theorem Moves.awaiting (moves : Moves setting s act t) (sound : StateSound setting s) {k : String}
    {row : Ticket} (stands : (t.db.tickets k).committed = some row)
    (awaits : row.status = .AWAITING_AGENT)
    (before : ∀ old, (s.db.tickets k).committed = some old → old.status ≠ .AWAITING_AGENT) :
    ∃ judged, DraftCommits s act k judged ∧ judged.grounding.grounded = true ∧
      t.db.responses = s.db.responses ++ [Judged.response k judged] := by
  rw [← awaits] at before
  rcases moves.moved sound stands before with
    fresh | ⟨source, edge, found, outside⟩ | ⟨i, work, moved⟩
  · rw [awaits] at fresh
    cases fresh
  · rw [awaits] at found
    exact absurd (by decide) (not_promoted_of_outside found outside)
  · obtain ⟨old, assign, -, takes, -⟩ := moved.takes
    obtain ⟨facts, held, judged, rfl, grounded⟩ :=
      drafted_of_awaiting (takes.target.symm.trans awaits)
    obtain rfl : held.ticket.id = k := Option.some.inj moved.about
    obtain ⟨step, isStep, isCommit⟩ := moved.act
    obtain ⟨phase, writing⟩ := moved.writing
    refine ⟨judged, ⟨i, step, facts, held, phase, isStep, isCommit, writing, rfl⟩, grounded, ?_⟩
    have responses := moved.commits.responses
    rw [responsesOf_grounded grounded] at responses
    exact responses

/-- In every run, a ticket comes to the waiting state by the transaction of a drafting cycle of its
own, which writes a grounded response of the ticket, and without a flag on its text. No ticket with
a flag is ever triaged, drafted or waiting. -/
theorem awaiting_guard_holds {ts : List (Transition State Act)}
    (run : Run (pipelineStep setting) empty ts t) :
    (∀ tr ∈ ts, ∀ k row, (tr.target.db.tickets k).committed = some row →
      row.status = .AWAITING_AGENT →
      (∀ old, (tr.source.db.tickets k).committed = some old → old.status ≠ .AWAITING_AGENT) →
      (∃ judged response, DraftCommits tr.source tr.act k judged ∧
        tr.target.db.responses = tr.source.db.responses ++ [response] ∧
        response.id = judged.response_id ∧ response.ticket_id = k ∧ response.grounded = true) ∧
        setting.matchPolicyFlags row.subject row.body_raw = []) ∧
      ∀ k row, (t.db.tickets k).committed = some row →
        setting.matchPolicyFlags row.subject row.body_raw ≠ [] →
        row.status ∉ [TicketState.TRIAGED, .DRAFTED, .AWAITING_AGENT] := by
  obtain ⟨⟨-, guarded⟩, throughout⟩ := guarded_run run
  constructor
  · intro tr member k row stands awaits before
    obtain ⟨⟨sound, -⟩, -, guarded'⟩ := throughout tr member
    obtain ⟨judged, drafts, grounded, responses⟩ :=
      (pipelineStep_moves (run.steps tr member)).awaiting sound stands awaits before
    refine ⟨⟨judged, Judged.response k judged, drafts, responses, rfl, rfl, grounded⟩, ?_⟩
    exact guarded'.clear k row stands (by rw [awaits]; decide)
  · intro k row stands flagged within
    exact flagged (guarded.clear k row stands within)

/-! ### A ticket that comes to wait -/

section Sample

/-- A digest that depends on the first character only. -/
def sampleDigest (text : String) : String :=
  String.ofList (List.replicate 64 (match text.toList.head? with
    | some 'G' => 'a'
    | some 'a' => 'b'
    | _ => 'c'))

def sampleJson : String → Option Json
  | "draft" => some (.object
      [ ("schema_version", .text "1.0"), ("agent", .text "draft"),
        ("confidence", .number (.integer 1)),
        ("draft", .object [("text", .text "reset it"), ("kb_ids", .array [.text "kb:1"])]) ])
  | "verdict" => some (.object
      [ ("schema_version", .text "1.0"), ("agent", .text "validate"),
        ("confidence", .number (.integer 1)),
        ("validate", .object [("grounded", .boolean true), ("unsupported_claims", .array [])]) ])
  | _ => none

def sampleSetting : Setting where
  sha256Hex := sampleDigest
  parseJson := sampleJson
  tables := ⟨id, id⟩
  matchPolicyFlags subject _ := if subject = "Refund" then [.refund] else []
  toISOString _ := "2026-01-01T00:00:00.000Z"

def sampleFacts : RuntimeFacts where
  org_id := "org"
  run_id := "run"
  ruleset_hash := "rules"
  kb_snapshot := "kb:s"
  thresholds := defaultEscalationThresholds

def sampleResult (text : String) : GatewayResult where
  response_text := text
  model_returned := "model"
  body_redacted := "It is locked."
  kb_context_redacted := [⟨"kb:1", "reset it"⟩]
  redaction := .null
  cached := false
  cost_micro := 1
  tokens_in := 1
  tokens_out := 1
  latency_ms := 1
  input_hash := "hash"
  ledger := ⟨1, 1, "row"⟩

/-- A triage and a drafting cycle, the second after the first response was due. -/
def sampleActs : List Act :=
  [ .submit "T" "org" "Locked" "It is locked." "en" "standard" 1 0,
    .startTriage 0 sampleFacts "T" 0 (some "kb:s"),
    .ask 0,
    .reply 0 (.parsed ⟨"access", .two, 0, 1⟩ 13),
    .settle 0 (some ⟨"sla", 1⟩) "ledger",
    .unit 0 .execute, .unit 0 .readHead, .unit 0 .drawNumber, .unit 0 .insert, .unit 0 .commit,
    .startDraft 1 sampleFacts "T" 120000,
    .search 1 (some "kb:s") fun _ =>
      .hits "locked" "kb:s" 1 [⟨"kb:1", "A", "1", "Title", "reset it", "1"⟩],
    .price 1 "R" none,
    .replyDraft 1 (.returned (sampleResult "draft")),
    .replyValidation 1 (.returned (sampleResult "verdict")),
    .settle 1 none "",
    .unit 1 .execute, .unit 1 .execute, .unit 1 .execute,
    .unit 1 .readHead, .unit 1 .drawNumber, .unit 1 .insert,
    .unit 1 .readHead, .unit 1 .drawNumber, .unit 1 .insert, .unit 1 .commit ]

theorem sampleDigest_append {prev rest : String} (filled : prev.toList.isEmpty = false) :
    sampleDigest (prev ++ rest) = sampleDigest prev := by
  rw [sampleDigest, sampleDigest, String.toList_append]
  cases chars : prev.toList with
  | nil =>
    rw [chars] at filled
    cases filled
  | cons c cs => rfl

/-- The row without its text being written out. -/
def sampleLink (content : AuditEventContent) (head : Option String) : ChainedAuditEvent :=
  let prev_hash := head.getD auditGenesis
  if prev_hash.toList.isEmpty then linkAuditRow sampleDigest content head
  else { toAuditEventContent := content, prev_hash, row_hash := sampleDigest prev_hash }

theorem sampleLink_eq (content : AuditEventContent) (head : Option String) :
    sampleLink content head = linkAuditRow sampleDigest content head := by
  simp only [sampleLink]
  split
  · rfl
  · next filled =>
    rw [linkAuditRow, auditRowHash, sampleDigest_append (Bool.not_eq_true _ ▸ filled)]

def sampleReadHead (db : Database Nat) (i : Nat) : UnitPhase → Option (Database Nat × UnitPhase)
  | .ready attempt (.record event :: rest) gap =>
    let content := event gap
    let head := auditHead ((db.audit content.org_id).sight i)
    some (db, .built attempt (sampleLink content (head.map fun row => row.row_hash)) rest gap)
  | _ => none

/-- The step, as it is evaluated. -/
def sampleStep (s : State) : Act → Option State
  | .unit i .readHead =>
    match s.sessions i with
    | .writing work phase =>
      (sampleReadHead s.db i phase).map fun next =>
        { db := next.1, sessions := Function.update s.sessions i (.writing work next.2) }
    | _ => none
  | act => pipelineStep sampleSetting s act

theorem sampleStep_eq : sampleStep = pipelineStep sampleSetting := by
  funext s act
  unfold sampleStep
  split
  · have reads : ∀ i phase, sampleReadHead s.db i phase =
        readHeadStep sampleDigest s.db i phase := by
      intro i phase
      unfold sampleReadHead readHeadStep
      split <;> simp only [sampleLink_eq]
    simp only [pipelineStep, reads]
    rfl
  · rfl

/-- A clause has fired on the vector of the draft. -/
def sampleFired : Session → Bool
  | .writing (.draft facts held (.answer judged)) _ =>
    ((sampleSetting.runtime facts).clausesOf judged.features held.now).any ClauseOutcome.fired
  | _ => false

/-- Up to the last commit, which takes the ticket where it waits. -/
theorem sample_performed : ∃ s t,
    perform (pipelineStep sampleSetting) empty sampleActs.dropLast = some s ∧
      pipelineStep sampleSetting s (.unit 1 .commit) = some t ∧
      ((s.db.tickets "T").committed.map fun row => row.status) = some .TRIAGED ∧
      ((t.db.tickets "T").committed.map fun row => row.status) = some .AWAITING_AGENT ∧
      sampleFired (s.sessions 1) = true := by
  rw [← sampleStep_eq]
  have performed : ((perform sampleStep empty sampleActs.dropLast).any fun s =>
      (sampleStep s (.unit 1 .commit)).any fun t =>
        ((s.db.tickets "T").committed.map fun row => row.status) = some .TRIAGED &&
        ((t.db.tickets "T").committed.map fun row => row.status) = some .AWAITING_AGENT &&
        sampleFired (s.sessions 1)) = true := by
    decide +kernel
  simp only [Option.any_eq_true, Bool.and_eq_true, decide_eq_true_eq] at performed
  obtain ⟨s, stands, t, taken, ⟨triaged, waits⟩, fired⟩ := performed
  exact ⟨s, t, stands, taken, triaged, waits, fired⟩

end Sample

theorem awaiting_guard_holds_sample : ∃ s t judged response,
    pipelineStep sampleSetting s (.unit 1 .commit) = some t ∧
      DraftCommits s (.unit 1 .commit) "T" judged ∧
      t.db.responses = s.db.responses ++ [response] ∧ response.ticket_id = "T" ∧
      response.grounded = true := by
  obtain ⟨s, t, performed, taken, triaged, waits, -⟩ := sample_performed
  have run := (run_of_perform _ _ _ _ performed).append (.single taken)
  obtain ⟨row, stands, status⟩ := Option.map_eq_some_iff.mp waits
  obtain ⟨⟨judged, response, drafts, responses, -, about, grounded⟩, -⟩ :=
    (awaiting_guard_holds run).1 ⟨s, .unit 1 .commit, t⟩
      (List.mem_append_right _ (List.mem_singleton.mpr rfl)) "T" row stands status (by
        intro old stands'
        rw [stands', Option.map_some, Option.some.injEq] at triaged
        rw [triaged]
        decide)
  exact ⟨s, t, judged, response, taken, drafts, responses, about, grounded⟩

end LedgerDesk.Pipeline
