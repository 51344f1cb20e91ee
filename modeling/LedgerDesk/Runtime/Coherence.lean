import LedgerDesk.Runtime.Registry

/-!
# Coherence of the registry

A run is claimed exactly where a runtime is held, whatever the order of the steps. The handler of a
failed build removes whatever stands for its organisation: a newer build too, when the failed one
was evicted before.
-/
namespace LedgerDesk.Runtime

open Foundation

variable {runIdFor : OrgId → RunId} {r s t u : Registry} {orgId : OrgId} {b : BuildId}

/-- The registry holds a runtime of the organisation that is pending or built. -/
def Registry.Holds (r : Registry) (orgId : OrgId) : Prop :=
  ∃ b build, r.runtimes orgId = some b ∧ r.builds[b]? = some build ∧ build.org_id = orgId ∧
    build.phase ≠ .failed

/-- The runtime that a call is given. -/
def Registry.given (runIdFor : OrgId → RunId) (r : Registry) (orgId : OrgId) : Option BuildId :=
  match r.runtimeFor runIdFor orgId with
  | .ok (b, _) => some b
  | .error _ => none

/-- The action evicts the runtime of the organisation. -/
def RegistryAct.Evicts (orgId : OrgId) : RegistryAct → Prop
  | .evictRuntime o => o = orgId
  | .refuseIfRuntimeIsStale runtime head => runtime.org_id = orgId ∧ runtime.kb_snapshot ≠ head
  | _ => False

/-- A build fails when a newer one stands in its place. -/
def Late (tr : Transition Registry RegistryAct) : Prop :=
  ∃ b build b', tr.act = .caught b ∧ tr.source.builds[b]? = some build ∧
    tr.source.runtimes build.org_id = some b' ∧ b' ≠ b

/-- A failure removes neither the entry nor the claim of another build. -/
def SparesOthers (runIdFor : OrgId → RunId) (tr : Transition Registry RegistryAct) : Prop :=
  ∀ b, tr.act = .caught b → ∀ orgId b', tr.source.runtimes orgId = some b' → b' ≠ b →
    tr.target.runtimes orgId = some b' ∧ tr.target.runs (runIdFor orgId) = some orgId

structure Registry.Coherent (runIdFor : OrgId → RunId) (r : Registry) : Prop where
  claims : ∀ runId orgId, r.runs runId = some orgId ↔
    runId = runIdFor orgId ∧ (r.runtimes orgId).isSome
  standing : ∀ orgId b, r.runtimes orgId = some b →
    ∃ build, r.builds[b]? = some build ∧ build.org_id = orgId ∧ build.phase ≠ .failed
  derived : ∀ (b : BuildId) build, r.builds[b]? = some build →
    build.run_id = runIdFor build.org_id

/-! ### The claims -/

/-- Where the claims follow the entries, a claim that is taken follows the new entry. -/
theorem claims_of_claimRun {claims claims' : RunClaims} {entries : OrgId → Option BuildId}
    (held : ∀ runId o, claims runId = some o ↔ runId = runIdFor o ∧ (entries o).isSome)
    (taken : claimRun claims (runIdFor orgId) orgId = .ok claims') (runId : RunId) (o : OrgId) :
    claims' runId = some o ↔
      runId = runIdFor o ∧ (Function.update entries orgId (some b) o).isSome := by
  have free : claims' = Function.update claims (runIdFor orgId) (some orgId) ∧
      ∀ holder, claims (runIdFor orgId) = some holder → holder = orgId := by
    unfold claimRun at taken
    split at taken
    · next holder found =>
      split at taken
      · cases taken
      · next own =>
        cases taken
        refine ⟨rfl, fun other is => ?_⟩
        rw [found] at is
        cases is
        exact not_not.mp own
    · next none =>
      cases taken
      exact ⟨rfl, fun holder is => by rw [none] at is; cases is⟩
  obtain ⟨rfl, own⟩ := free
  by_cases sameRun : runId = runIdFor orgId
  · -- The run was free, or held by the organisation itself.
    subst sameRun
    rw [Function.update_self, Option.some.injEq]
    constructor
    · rintro rfl
      simp
    · rintro ⟨sameRun, stands⟩
      by_cases other : o = orgId
      · exact other.symm
      · rw [Function.update_of_ne other] at stands
        exact (own o ((held _ o).mpr ⟨sameRun, stands⟩)).symm
  · rw [Function.update_of_ne sameRun, held]
    by_cases other : o = orgId
    · subst other
      exact ⟨fun h => absurd h.1 sameRun, fun h => absurd h.1 sameRun⟩
    · rw [Function.update_of_ne other]

/-- A claim that is released goes with the entry. -/
theorem claims_of_releaseRun {claims : RunClaims} {entries : OrgId → Option BuildId}
    (held : ∀ runId o, claims runId = some o ↔ runId = runIdFor o ∧ (entries o).isSome)
    (runId : RunId) (o : OrgId) : releaseRun claims (runIdFor orgId) orgId runId = some o ↔
      runId = runIdFor o ∧ (Function.update entries orgId none o).isSome := by
  unfold releaseRun
  split
  · next own =>
    by_cases sameRun : runId = runIdFor orgId
    · subst sameRun
      rw [Function.update_self]
      refine ⟨nofun, fun ⟨sameRun, stands⟩ => ?_⟩
      by_cases other : o = orgId
      · rw [other, Function.update_self] at stands
        cases stands
      · rw [Function.update_of_ne other] at stands
        have holder := (held _ o).mpr ⟨sameRun, stands⟩
        rw [own] at holder
        exact absurd (Option.some.inj holder).symm other
    · rw [Function.update_of_ne sameRun, held]
      by_cases other : o = orgId
      · subst other
        exact ⟨fun h => absurd h.1 sameRun, fun h => absurd h.1 sameRun⟩
      · rw [Function.update_of_ne other]
  · next free =>
    -- Nothing was held, so nothing goes.
    rw [held]
    by_cases other : o = orgId
    · subst other
      rw [Function.update_self]
      exact ⟨fun h => absurd ((held _ _).mpr ⟨rfl, h.2⟩) free, fun h => by cases h.2⟩
    · rw [Function.update_of_ne other]

/-! ### What one step can do -/

/-- An entry goes, and its claim with it. -/
theorem Registry.Coherent.removed (coherent : r.Coherent runIdFor) (orgId : OrgId) :
    Registry.Coherent runIdFor { r with
      runtimes := Function.update r.runtimes orgId none
      runs := releaseRun r.runs (runIdFor orgId) orgId } where
  claims := claims_of_releaseRun coherent.claims
  standing o b stands := by
    by_cases other : o = orgId
    · rw [other] at stands
      simp at stands
    · exact coherent.standing o b (by simpa [Function.update_of_ne other] using stands)
  derived := coherent.derived

/-- The phase of a build moves; one that stands does not fail so. -/
theorem Registry.Coherent.setPhase {build : Build} {phase : BuildPhase}
    (coherent : r.Coherent runIdFor) (found : r.builds[b]? = some build)
    (going : ∀ o, r.runtimes o = some b → phase ≠ .failed) :
    (r.setPhase b build phase).Coherent runIdFor where
  claims := coherent.claims
  standing o b' stands := by
    obtain ⟨old, at_, org, live⟩ := coherent.standing o b' stands
    by_cases same : b' = b
    · subst same
      rw [found] at at_
      cases at_
      refine ⟨{ build with phase := phase }, ?_, org, going o stands⟩
      have within := (List.getElem?_eq_some_iff.mp found).1
      simp [Registry.setPhase, within]
    · refine ⟨old, ?_, org, live⟩
      simpa [Registry.setPhase, List.getElem?_set, Ne.symm same] using at_
  derived b' other at_ := by
    by_cases same : b' = b
    · subst same
      have within := (List.getElem?_eq_some_iff.mp found).1
      simp only [Registry.setPhase, List.getElem?_set_self within, Option.some.injEq] at at_
      subst at_
      exact coherent.derived b' build found
    · exact coherent.derived b' other (by simpa [Registry.setPhase, List.getElem?_set, Ne.symm same] using at_)

theorem Registry.Coherent.evictRuntime (coherent : r.Coherent runIdFor) (orgId : OrgId) :
    (r.evictRuntime runIdFor orgId).Coherent runIdFor := by
  unfold Registry.evictRuntime
  split
  · exact coherent
  · exact coherent.removed orgId

theorem Registry.Coherent.runtimeFor {r' : Registry} (coherent : r.Coherent runIdFor)
    (given : r.runtimeFor runIdFor orgId = .ok (b, r')) : r'.Coherent runIdFor := by
  unfold Registry.runtimeFor at given
  split at given
  · cases given
    exact coherent
  · split at given
    · cases given
    · next none runs taken =>
      cases given
      refine ⟨claims_of_claimRun coherent.claims taken, fun o b stands => ?_, fun b build at_ => ?_⟩
      · by_cases other : o = orgId
        · subst other
          simp only [Function.update_self, Option.some.injEq] at stands
          subst stands
          exact ⟨_, List.getElem?_concat_length, rfl, nofun⟩
        · obtain ⟨build, at_, org, live⟩ :=
            coherent.standing o b (by simpa [Function.update_of_ne other] using stands)
          have within := (List.getElem?_eq_some_iff.mp at_).1
          exact ⟨build, by rw [List.getElem?_append_left within]; exact at_, org, live⟩
      · rcases Nat.lt_or_ge b r.builds.length with within | past
        · exact coherent.derived b build (by rwa [List.getElem?_append_left within] at at_)
        · rw [List.getElem?_append_right past, List.getElem?_singleton] at at_
          split at at_
          · cases at_
            rfl
          · cases at_

theorem coherent_of_step {act : RegistryAct} (taken : registryStep runIdFor s act = some t)
    (coherent : s.Coherent runIdFor) : t.Coherent runIdFor := by
  cases act with
  | runtimeFor orgId =>
    simp only [registryStep] at taken
    split at taken
    · next given =>
      cases taken
      exact coherent.runtimeFor given
    · cases taken
      exact coherent
  | evictRuntime orgId =>
    cases taken
    exact coherent.evictRuntime orgId
  | refuseIfRuntimeIsStale runtime head =>
    cases taken
    unfold Registry.refuseIfRuntimeIsStale
    split
    · exact coherent
    · exact coherent.evictRuntime _
  | completes b kb_snapshot =>
    simp only [registryStep] at taken
    split at taken
    · next build found =>
      split at taken
      · cases taken
        exact coherent.setPhase found fun _ _ => nofun
      · cases taken
    · cases taken
  | rejects b =>
    simp only [registryStep] at taken
    split at taken
    · next build found =>
      split at taken
      · cases taken
        exact coherent.setPhase found fun _ _ => nofun
      · cases taken
    · cases taken
  | caught b =>
    simp only [registryStep] at taken
    split at taken
    · next build found =>
      split at taken
      · cases taken
        -- The entry of the organisation is gone before the build counts as failed.
        have gone := coherent.removed build.org_id
        rw [← coherent.derived b build found] at gone
        refine gone.setPhase found fun o stands => ?_
        by_cases other : o = build.org_id
        · rw [other] at stands
          simp at stands
        · simp only [Function.update_of_ne other] at stands
          obtain ⟨same, at_, org, -⟩ := coherent.standing o b stands
          rw [found] at at_
          cases at_
          exact absurd org.symm other
      · cases taken
    · cases taken

/-- A build stays that of its organisation. -/
theorem build_of_runtimeFor {r' : Registry} {b' : BuildId} {build : Build}
    (called : r.runtimeFor runIdFor orgId = .ok (b, r')) (found : r.builds[b']? = some build) :
    ∃ build', r'.builds[b']? = some build' ∧ build'.org_id = build.org_id := by
  have within := (List.getElem?_eq_some_iff.mp found).1
  unfold Registry.runtimeFor at called
  split at called
  · cases called
    exact ⟨build, found, rfl⟩
  · split at called
    · cases called
    · cases called
      exact ⟨build, by rw [List.getElem?_append_left within]; exact found, rfl⟩

theorem build_of_setPhase {old build : Build} {b' : BuildId} (phase : BuildPhase)
    (own : r.builds[b]? = some old) (found : r.builds[b']? = some build) :
    ∃ build', (r.setPhase b old phase).builds[b']? = some build' ∧
      build'.org_id = build.org_id := by
  have within := (List.getElem?_eq_some_iff.mp own).1
  by_cases same : b' = b
  · subst same
    rw [own] at found
    cases found
    exact ⟨_, List.getElem?_set_self within, rfl⟩
  · exact ⟨build, by simpa [Registry.setPhase, List.getElem?_set, Ne.symm same] using found, rfl⟩

theorem build_of_step {act : RegistryAct} {build : Build}
    (taken : registryStep runIdFor s act = some t) (found : s.builds[b]? = some build) :
    ∃ build', t.builds[b]? = some build' ∧ build'.org_id = build.org_id := by
  have evicted : ∀ o, (s.evictRuntime runIdFor o).builds = s.builds := by
    intro o
    unfold Registry.evictRuntime
    split
    · rfl
    · rfl
  cases act with
  | runtimeFor o =>
    simp only [registryStep] at taken
    split at taken
    · next called =>
      cases taken
      exact build_of_runtimeFor called found
    · cases taken
      exact ⟨build, found, rfl⟩
  | evictRuntime o =>
    cases taken
    exact ⟨build, by rw [evicted]; exact found, rfl⟩
  | refuseIfRuntimeIsStale runtime head =>
    cases taken
    unfold Registry.refuseIfRuntimeIsStale
    split
    · exact ⟨build, found, rfl⟩
    · exact ⟨build, by rw [evicted]; exact found, rfl⟩
  | completes b' kb_snapshot =>
    simp only [registryStep] at taken
    split at taken
    · next own =>
      split at taken
      · cases taken
        exact build_of_setPhase _ own found
      · cases taken
    · cases taken
  | rejects b' =>
    simp only [registryStep] at taken
    split at taken
    · next own =>
      split at taken
      · cases taken
        exact build_of_setPhase _ own found
      · cases taken
    · cases taken
  | caught b' =>
    simp only [registryStep] at taken
    split at taken
    · next own =>
      split at taken
      · cases taken
        exact build_of_setPhase .failed own found
      · cases taken
    · cases taken

/-- What a step does to the entry of an organisation. -/
theorem entry_of_step {act : RegistryAct} (taken : registryStep runIdFor s act = some t)
    (stands : s.runtimes orgId = some b) : t.runtimes orgId = some b ∨ act.Evicts orgId ∨
      ∃ b' build, act = .caught b' ∧ s.builds[b']? = some build ∧ build.org_id = orgId := by
  have evicted : ∀ o, (s.evictRuntime runIdFor o).runtimes orgId = some b ∨ o = orgId := by
    intro o
    by_cases same : o = orgId
    · exact .inr same
    · unfold Registry.evictRuntime
      split
      · exact .inl stands
      · exact .inl (by simpa [Function.update_of_ne (Ne.symm same)] using stands)
  cases act with
  | runtimeFor o =>
    simp only [registryStep, Registry.runtimeFor] at taken
    split at taken
    · next given =>
      cases taken
      split at given
      · cases given
        exact .inl stands
      · next none =>
        split at given
        · cases given
        · cases given
          have other : orgId ≠ o := by
            rintro rfl
            rw [stands] at none
            cases none
          exact .inl (by simpa [Function.update_of_ne other] using stands)
    · cases taken
      exact .inl stands
  | evictRuntime o =>
    cases taken
    exact (evicted o).imp_right .inl
  | refuseIfRuntimeIsStale runtime head =>
    cases taken
    unfold Registry.refuseIfRuntimeIsStale
    split
    · exact .inl stands
    · next stale => exact (evicted runtime.org_id).imp_right fun same => .inl ⟨same, stale⟩
  | completes b' kb_snapshot =>
    simp only [registryStep] at taken
    split at taken
    · split at taken
      · cases taken
        exact .inl stands
      · cases taken
    · cases taken
  | rejects b' =>
    simp only [registryStep] at taken
    split at taken
    · split at taken
      · cases taken
        exact .inl stands
      · cases taken
    · cases taken
  | caught b' =>
    simp only [registryStep] at taken
    split at taken
    · next build found =>
      split at taken
      · cases taken
        by_cases same : build.org_id = orgId
        · exact .inr (.inr ⟨b', build, rfl, found, same⟩)
        · refine .inl ?_
          change Function.update s.runtimes build.org_id none orgId = some b
          rwa [Function.update_of_ne (Ne.symm same)]
      · cases taken
    · cases taken

/-- A failure spares the other builds exactly when it is not late. -/
theorem sparesOthers_iff {tr : Transition Registry RegistryAct}
    (taken : registryStep runIdFor tr.source tr.act = some tr.target)
    (coherent : tr.source.Coherent runIdFor) : SparesOthers runIdFor tr ↔ ¬Late tr := by
  have after := coherent_of_step taken coherent
  constructor
  · rintro spares ⟨b, build, b', act, found, stands, newer⟩
    obtain ⟨kept, -⟩ := spares b act build.org_id b' stands newer
    rw [act] at taken
    simp only [registryStep, found] at taken
    split at taken
    · -- The handler has removed the entry of its organisation.
      rw [← Option.some.inj taken] at kept
      simp [Registry.failed] at kept
    · cases taken
  · intro inTime b act orgId b' stands newer
    have kept : tr.target.runtimes orgId = some b' := by
      rcases entry_of_step taken stands with kept | evicts | ⟨b'', build, is, found, rfl⟩
      · exact kept
      · rw [act] at evicts
        cases evicts
      · rw [act] at is
        cases is
        exact absurd ⟨b, build, b', act, found, stands, newer⟩ inTime
    exact ⟨kept, (after.claims _ _).mpr ⟨rfl, by simp [kept]⟩⟩

/-- An entry stands until it is evicted or its own build fails, when no failure is late. -/
theorem standing_of_run {ts : List (Transition Registry RegistryAct)}
    (run : Run (registryStep runIdFor) s ts u) (stands : s.runtimes orgId = some b)
    (inTime : ∀ tr ∈ ts, ¬Late tr)
    (kept : ∀ tr ∈ ts, ¬tr.act.Evicts orgId ∧ tr.act ≠ .caught b) : u.runtimes orgId = some b := by
  refine (run.invariant_of (P := fun r => r.runtimes orgId = some b)
    (fun tr => ¬Late tr ∧ ¬tr.act.Evicts orgId ∧ tr.act ≠ .caught b)
    (fun tr taken allowed stands => ?_) (fun tr member => ⟨inTime tr member, kept tr member⟩) stands).1
  obtain ⟨inTime, spared, own⟩ := allowed
  rcases entry_of_step taken stands with kept | evicts | ⟨b', build, act, found, rfl⟩
  · exact kept
  · exact absurd evicts spared
  · by_cases same : b' = b
    · subst same
      exact absurd act own
    · exact absurd ⟨b', build, b, act, found, stands, Ne.symm same⟩ inTime

/-- The runtime that a call is given stands from then on. -/
theorem stands_of_runtimeFor {r' : Registry}
    (called : r.runtimeFor runIdFor orgId = .ok (b, r')) : r'.runtimes orgId = some b := by
  unfold Registry.runtimeFor at called
  split at called
  · next stands =>
    cases called
    exact stands
  · split at called
    · cases called
    · cases called
      exact Function.update_self ..

theorem stands_of_given (taken : registryStep runIdFor s (.runtimeFor orgId) = some t)
    (given : s.given runIdFor orgId = some b) : t.runtimes orgId = some b := by
  unfold Registry.given at given
  simp only [registryStep] at taken
  split at given
  · next called =>
    cases given
    rw [called] at taken
    cases taken
    exact stands_of_runtimeFor called
  · cases given

theorem given_of_stands (stands : r.runtimes orgId = some b) : r.given runIdFor orgId = some b := by
  simp [Registry.given, Registry.runtimeFor, stands]

theorem empty_coherent : Registry.empty.Coherent runIdFor where
  claims _ _ := by simp [Registry.empty]
  standing _ _ stands := by cases stands
  derived _ _ at_ := by simp [Registry.empty] at at_

theorem Registry.Coherent.holds_iff (coherent : r.Coherent runIdFor) :
    r.Holds orgId ↔ (r.runtimes orgId).isSome := by
  constructor
  · rintro ⟨b, build, stands, -⟩
    simp [stands]
  · intro held
    obtain ⟨b, stands⟩ := Option.isSome_iff_exists.mp held
    obtain ⟨build, found, org, live⟩ := coherent.standing orgId b stands
    exact ⟨b, build, stands, found, org, live⟩

/-! ### The registry over whole runs -/

/-- In every run a run is claimed exactly by the organisation that holds a runtime for it, and no
run by two. Failures spare the newer builds exactly when none is late, and then two calls between
which the runtime is not evicted and does not fail are given the same. -/
theorem registry_coherent {ts : List (Transition Registry RegistryAct)}
    (run : Run (registryStep runIdFor) Registry.empty ts u) :
    (∀ runId orgId, u.runs runId = some orgId ↔ runId = runIdFor orgId ∧ u.Holds orgId) ∧
    (∀ orgId orgId', u.Holds orgId → u.Holds orgId' → runIdFor orgId = runIdFor orgId' →
      orgId = orgId') ∧
    ((∀ tr ∈ ts, SparesOthers runIdFor tr) ↔ ∀ tr ∈ ts, ¬Late tr) ∧
    ((∀ tr ∈ ts, ¬Late tr) → ∀ before first between, ts = before ++ first :: between →
      ∀ orgId b, first.act = .runtimeFor orgId → first.source.given runIdFor orgId = some b →
        (∀ tr ∈ between, ¬tr.act.Evicts orgId ∧ tr.act ≠ .caught b) →
          u.given runIdFor orgId = some b) := by
  obtain ⟨final, all⟩ := run.invariant (P := Registry.Coherent runIdFor)
    (fun _ _ _ => coherent_of_step) empty_coherent
  have claimed : ∀ runId orgId,
      u.runs runId = some orgId ↔ runId = runIdFor orgId ∧ u.Holds orgId := by
    intro runId orgId
    rw [final.holds_iff]
    exact final.claims runId orgId
  refine ⟨claimed, fun orgId orgId' held held' same => ?_, ?_, ?_⟩
  · have first := (claimed _ orgId).mpr ⟨rfl, held⟩
    have second := (claimed _ orgId').mpr ⟨rfl, held'⟩
    rw [same, second] at first
    exact (Option.some.inj first).symm
  · exact forall₂_congr fun tr member => sparesOthers_iff (run.steps tr member) (all tr member).1
  · rintro inTime before first between rfl orgId b act given kept
    obtain ⟨-, taken, rest⟩ := run.split_cons
    rw [act] at taken
    have stands := stands_of_given taken given
    exact given_of_stands
      (standing_of_run rest stands (fun tr member => inTime tr (by simp [member])) kept)

/-! ### A late failure -/

/-- The build is evicted while it is pending, a newer one is begun, and then the first one fails. -/
def lateFailure : List RegistryAct :=
  [.runtimeFor "org", .evictRuntime "org", .runtimeFor "org", .completes 1 "kb", .rejects 0]

/-- The failure of the evicted build removes the entry and the claim of the one that was built
since, and the next call begins a third. -/
theorem late_failure_removes_newer :
    ∃ ts u, Run (registryStep id) Registry.empty ts u ∧ ∃ tr ∈ ts, tr.act = .caught 0 ∧
      tr.source.runtimes "org" = some 1 ∧ tr.source.runs "org" = some "org" ∧
      tr.target.runtimes "org" = none ∧ tr.target.runs "org" = none ∧
      tr.source.given id "org" = some 1 ∧ tr.target.given id "org" = some 2 := by
  obtain ⟨s, u, performed, taken, entry, claim, gone, released, same, third⟩ :
      ∃ s u, perform (registryStep id) Registry.empty lateFailure = some s ∧
        registryStep id s (.caught 0) = some u ∧ s.runtimes "org" = some 1 ∧
        s.runs "org" = some "org" ∧ u.runtimes "org" = none ∧ u.runs "org" = none ∧
        s.given id "org" = some 1 ∧ u.given id "org" = some 2 :=
    ⟨_, _, rfl, rfl, rfl, rfl, rfl, rfl, rfl, rfl⟩
  have run := (run_of_perform _ _ _ _ performed).append (.single taken)
  exact ⟨_, u, run, ⟨s, .caught 0, u⟩, by simp, rfl, entry, claim, gone, released, same, third⟩

/-- A build that fails while it stands is the only one to go. -/
theorem prompt_failure_spares_others :
    ∃ ts u, Run (registryStep id) Registry.empty ts u ∧ u.runtimes "other" = some 1 ∧
      u.runs "other" = some "other" ∧ u.runs "org" = none := by
  obtain ⟨u, performed, stands, released, held⟩ : ∃ u, perform (registryStep id) Registry.empty
      [.runtimeFor "org", .runtimeFor "other", .rejects 0, .caught 0] = some u ∧
      u.runtimes "other" = some 1 ∧ u.runs "org" = none ∧ u.Holds "other" :=
    ⟨_, rfl, rfl, rfl, 1, ⟨"other", "other", .pending⟩, rfl, rfl, rfl, nofun⟩
  have run := run_of_perform _ _ _ _ performed
  obtain ⟨claimed, -⟩ := registry_coherent run
  exact ⟨_, u, run, stands, (claimed "other" "other").mpr ⟨rfl, held⟩, released⟩

end LedgerDesk.Runtime
