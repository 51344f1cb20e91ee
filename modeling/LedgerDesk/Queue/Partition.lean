import LedgerDesk.Agents.Text
import LedgerDesk.Foundation.Joined
import LedgerDesk.Queue.Dedupe

/-!
# What becomes of a stream of submissions

Every submission of a stream in order is admitted or collapsed, once. The groups of one content
follow each other a window apart, since a group keeps the anchor it was opened at.
-/
namespace LedgerDesk.Queue

open Foundation

/-! ### Keys and contents -/

theorem colon_notMem_integer (n : Int) : ':' ∉ (toString n).toList := by
  intro member
  have inside := Agents.integer_inside n ':' member
  revert inside
  decide

theorem dedupeKey_toList (s : Submission) (anchor : Int) :
    (dedupeKey s.orgId s.bodySha256 anchor).toList =
      (content s).toList ++ ':' :: (toString anchor).toList := by
  simp [dedupeKey, content, String.toList_append]

/-- A key names the content and the anchor of its group. -/
theorem dedupeKey_injective {s s' : Submission} {anchor anchor' : Int}
    (same : dedupeKey s.orgId s.bodySha256 anchor = dedupeKey s'.orgId s'.bodySha256 anchor') :
    content s = content s' ∧ anchor = anchor' := by
  have texts := congrArg String.toList same
  rw [dedupeKey_toList, dedupeKey_toList] at texts
  obtain ⟨contents, anchors⟩ :=
    last_separator (colon_notMem_integer anchor) (colon_notMem_integer anchor') texts
  exact ⟨String.toList_inj.mp contents, Agents.integer_injective _ _ anchors⟩

/-- A content whose body is a digest names the organisation and the body. -/
theorem content_injective {s s' : Submission} (digest : ':' ∉ s.bodySha256.toList)
    (digest' : ':' ∉ s'.bodySha256.toList) (same : content s = content s') :
    s.orgId = s'.orgId ∧ s.bodySha256 = s'.bodySha256 := by
  have texts := congrArg String.toList same
  simp only [content, String.toList_append] at texts
  obtain ⟨orgs, bodies⟩ := last_separator digest digest' (by simpa using texts)
  exact ⟨String.toList_inj.mp orgs, String.toList_inj.mp bodies⟩

/-! ### The fold -/

section Fold

variable {τ : Type*} {submission : τ → Submission} {windowMs : Int}

/-- What the fold has made of a stream so far. -/
structure Partitioned (submission : τ → Submission) (windowMs : Int) (entries : List τ)
    (result : CollapseResult τ) : Prop where
  once : (result.admitted.map Prod.fst ++ result.collapsed.map Prod.fst).Perm entries
  admitted_order : (result.admitted.map Prod.fst).Sublist entries
  collapsed_order : (result.collapsed.map Prod.fst).Sublist entries
  /-- An open group is that of the last submission of its content to be admitted. -/
  opened : ∀ key i, result.openGroups key = some i → i.open_ = true ∧
    ∃ a ∈ result.admitted, content (submission a.1) = key ∧ (submission a.1).id = i.id ∧
      (submission a.1).createdAt = i.anchorCreatedAt
  latest : ∀ a ∈ result.admitted, ∃ i, result.openGroups (content (submission a.1)) = some i ∧
    (submission a.1).createdAt ≤ i.anchorCreatedAt
  keyed : ∀ a ∈ result.admitted,
    a.2 = dedupeKey (submission a.1).orgId (submission a.1).bodySha256 (submission a.1).createdAt
  absorbed : ∀ e ∈ result.collapsed, ∃ a ∈ result.admitted, (submission a.1).id = e.2 ∧
    content (submission a.1) = content (submission e.1) ∧
    (submission a.1).createdAt ≤ (submission e.1).createdAt ∧
    (submission e.1).createdAt < (submission a.1).createdAt + windowMs
  apart : result.admitted.Pairwise fun a b => content (submission a.1) = content (submission b.1) →
    (submission a.1).createdAt + windowMs ≤ (submission b.1).createdAt

theorem partitioned_nil : Partitioned submission windowMs [] (collapseDuplicates submission windowMs []) := by
  constructor <;> simp [collapseDuplicates]

theorem Partitioned.collapse {entries : List τ} {result : CollapseResult τ} {entry : τ}
    {incumbent : DedupeIncumbent} (sound : Partitioned submission windowMs entries result)
    (held : result.openGroups (content (submission entry)) = some incumbent)
    (absorbs : WithinWindow incumbent (submission entry).createdAt windowMs) :
    Partitioned submission windowMs (entries ++ [entry])
      (collapseOne submission windowMs result entry) := by
  rw [collapseOne_absorbed held absorbs]
  obtain ⟨-, a, admitted, same, id, anchor⟩ := sound.opened _ _ held
  exact
    { once := by
        simp only [List.map_append, List.map_cons, List.map_nil, ← List.append_assoc]
        exact sound.once.append_right [entry]
      admitted_order := sound.admitted_order.trans (List.sublist_append_left entries [entry])
      collapsed_order := by
        simp only [List.map_append, List.map_cons, List.map_nil]
        exact sound.collapsed_order.append (List.Sublist.refl [entry])
      opened := sound.opened
      latest := sound.latest
      keyed := sound.keyed
      absorbed := by
        intro e member
        rcases List.mem_append.mp member with before | here
        · exact sound.absorbed e before
        · rw [List.mem_singleton] at here
          subst here
          refine ⟨a, admitted, id, same, ?_, ?_⟩
          · rw [anchor]
            exact absorbs.2.1
          · rw [anchor]
            exact absorbs.2.2
      apart := sound.apart }

theorem Partitioned.fresh {entries : List τ} {result : CollapseResult τ} {entry : τ}
    (sound : Partitioned submission windowMs entries result)
    (ordered : ∀ e ∈ entries, (submission e).createdAt ≤ (submission entry).createdAt)
    (none_absorbs : ∀ i, result.openGroups (content (submission entry)) = some i →
      ¬ WithinWindow i (submission entry).createdAt windowMs) :
    Partitioned submission windowMs (entries ++ [entry])
      (collapseOne submission windowMs result entry) := by
  rw [collapseOne_fresh none_absorbs]
  have earlier : ∀ a ∈ result.admitted, (submission a.1).createdAt ≤ (submission entry).createdAt :=
    fun a member => ordered _ (sound.admitted_order.subset (List.mem_map_of_mem member))
  -- the group that is replaced has had its window
  have spaced : ∀ a ∈ result.admitted, content (submission a.1) = content (submission entry) →
      (submission a.1).createdAt + windowMs ≤ (submission entry).createdAt := by
    intro a member same
    obtain ⟨i, held, before⟩ := sound.latest a member
    rw [same] at held
    obtain ⟨is_open, b, admitted, -, -, anchor⟩ := sound.opened _ _ held
    have outside := none_absorbs i held
    have reached : i.anchorCreatedAt ≤ (submission entry).createdAt := anchor ▸ earlier b admitted
    by_contra inside
    exact outside ⟨is_open, reached, by omega⟩
  exact
    { once := by
        simp only [List.map_append, List.map_cons, List.map_nil, List.append_assoc]
        refine (List.Perm.append_left _ List.perm_append_comm).trans ?_
        rw [← List.append_assoc]
        exact sound.once.append_right [entry]
      admitted_order := by
        simp only [List.map_append, List.map_cons, List.map_nil]
        exact sound.admitted_order.append (List.Sublist.refl [entry])
      collapsed_order := sound.collapsed_order.trans (List.sublist_append_left entries [entry])
      opened := by
        intro key i held
        dsimp only at held ⊢
        by_cases own : key = content (submission entry)
        · subst own
          rw [Function.update_self, Option.some.injEq] at held
          subst held
          exact ⟨rfl, _, List.mem_append_right _ (List.mem_singleton_self _), rfl, rfl, rfl⟩
        · rw [Function.update_of_ne own] at held
          obtain ⟨is_open, a, admitted, rest⟩ := sound.opened key i held
          exact ⟨is_open, a, List.mem_append_left _ admitted, rest⟩
      latest := by
        intro a member
        dsimp only at member ⊢
        by_cases own : content (submission a.1) = content (submission entry)
        · rw [own, Function.update_self]
          refine ⟨_, rfl, ?_⟩
          rcases List.mem_append.mp member with before | here
          · exact earlier a before
          · rw [List.mem_singleton] at here
            subst here
            exact le_refl _
        · rw [Function.update_of_ne own]
          rcases List.mem_append.mp member with before | here
          · exact sound.latest a before
          · rw [List.mem_singleton] at here
            exact absurd (by rw [here]) own
      keyed := by
        intro a member
        rcases List.mem_append.mp member with before | here
        · exact sound.keyed a before
        · rw [List.mem_singleton] at here
          rw [here]
      absorbed := by
        intro e member
        obtain ⟨a, admitted, rest⟩ := sound.absorbed e member
        exact ⟨a, List.mem_append_left _ admitted, rest⟩
      apart := by
        rw [List.pairwise_append]
        refine ⟨sound.apart, List.pairwise_singleton _ _, ?_⟩
        intro a member b here same
        rw [List.mem_singleton] at here
        subst here
        exact spaced a member same }

theorem collapseDuplicates_partitioned {entries : List τ}
    (ordered : entries.Pairwise fun a b => (submission a).createdAt ≤ (submission b).createdAt) :
    Partitioned submission windowMs entries (collapseDuplicates submission windowMs entries) := by
  -- over the stream, from its beginning
  induction entries using List.reverseRecOn with
  | nil => exact partitioned_nil
  | append_singleton entries entry ih =>
    obtain ⟨before, -, last⟩ := List.pairwise_append.mp ordered
    have sound := ih before
    rw [collapseDuplicates_concat]
    rcases dedupeDecision_cases (submission entry) ((collapseDuplicates submission windowMs
        entries).openGroups (content (submission entry))) windowMs with
      ⟨incumbent, held, absorbs⟩ | none_absorbs
    · exact sound.collapse held absorbs
    · exact sound.fresh (fun e member => last e member entry (List.mem_singleton_self _)) none_absorbs

/-- Two groups never have one key. -/
theorem Partitioned.keys_nodup {entries : List τ} {result : CollapseResult τ}
    (sound : Partitioned submission windowMs entries result) (positive : 0 < windowMs) :
    (result.admitted.map Prod.snd).Nodup := by
  rw [List.Nodup, List.pairwise_map]
  refine sound.apart.imp_of_mem ?_
  intro a b admitted admitted' apart same
  rw [sound.keyed a admitted, sound.keyed b admitted'] at same
  obtain ⟨contents, anchors⟩ := dedupeKey_injective same
  have spaced := apart contents
  omega

end Fold

section Stream

variable {τ : Type*}

end Stream

end LedgerDesk.Queue
