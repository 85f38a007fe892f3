import AsyncGateway.Gateway.Callbacks
import AsyncGateway.Lib.Backlog

/-!
# Workers — the callbacks without a task

A callback whose task is not known is stashed as an orphan (`stash_orphan`), and the inspector looks
for the task later: of the orphans that are not resolved it takes the oldest, and resolves those for
which there is a task by then (`reconcile_orphans`).  An orphan no task is ever found for stays, and
is among the oldest at every tick.  So an orphan that has its task is resolved exactly where fewer
than a batch of older ones stay without theirs (`orphans_resolved`).
-/

namespace AsyncGateway

/-- A row of `orphan_callback`, as the inspector reads and writes it. -/
structure OrphanRow extends OrphanCallback where
  id : ℕ
  receivedAt : Time
  resolved : Bool := false
  resolvedTaskId : Option String := none

/-- The table: the ids are counted up. -/
structure Orphans where
  rows : List OrphanRow
  nextId : ℕ
  below : ∀ r ∈ rows, r.id < nextId
  ids : (rows.map (·.id)).Nodup

namespace Orphans

variable (s : Orphans)

def empty : Orphans := ⟨[], 0, by simp, List.nodup_nil⟩

/-- `stash_orphan`, at a time. -/
def stashOrphan (now : Time) (orphan : OrphanCallback) : Orphans where
  rows := s.rows ++ [{ orphan with id := s.nextId, receivedAt := now }]
  nextId := s.nextId + 1
  below := by
    intro r hr
    rcases List.mem_append.mp hr with hr | hr
    · exact (s.below r hr).trans (Nat.lt_succ_self _)
    · rw [List.mem_singleton.mp hr]
      exact Nat.lt_succ_self _
  ids := by
    rw [List.map_append, List.nodup_append]
    refine ⟨s.ids, List.nodup_singleton _, ?_⟩
    rintro _ ha b hb rfl
    obtain ⟨r, hr, rfl⟩ := List.mem_map.mp ha
    exact absurd (List.mem_singleton.mp hb) (s.below r hr).ne

/-- The orphans that are not resolved. -/
def unresolved : List OrphanRow := s.rows.filter (!·.resolved)

/-- `unresolved_orphans`: the oldest of them, two hundred where the caller says nothing. -/
def unresolvedOrphans (limit : ℕ := 200) : List OrphanRow :=
  Backlog.oldest OrphanRow.receivedAt limit s.unresolved

end Orphans

/-- What `find_by_upstream_id` answers for each orphan, at the time it is asked. -/
abbrev Lookup := OrphanRow → Option AsyncTask

/-- The orphan, where a task was found for it. -/
def OrphanRow.settled (orphan : OrphanRow) (find : Lookup) : OrphanRow :=
  match find orphan with
  | some task => { orphan with resolved := true, resolvedTaskId := some task.taskId }
  | none => orphan

theorem OrphanRow.settled_id (orphan : OrphanRow) (find : Lookup) :
    (orphan.settled find).id = orphan.id := by
  unfold OrphanRow.settled
  split <;> rfl

namespace Orphans

/-- What becomes of a row: those that were selected are looked up. -/
def settling (find : Lookup) (limit : ℕ) (s : Orphans) (r : OrphanRow) : OrphanRow :=
  if (s.unresolvedOrphans limit).any (·.id = r.id) then r.settled find else r

theorem settling_id {find : Lookup} {limit : ℕ} {s : Orphans} {r : OrphanRow} :
    (s.settling find limit r).id = r.id := by
  unfold settling
  split
  · exact r.settled_id find
  · rfl

/-- The orphans in `reconcile_orphans`. -/
def reconciled (find : Lookup) (limit : ℕ) (s : Orphans) : Orphans where
  rows := s.rows.map (s.settling find limit)
  nextId := s.nextId
  below := by
    intro r hr
    obtain ⟨r, hin, rfl⟩ := List.mem_map.mp hr
    rw [settling_id]
    exact s.below r hin
  ids := by
    have hsame : (s.rows.map (s.settling find limit)).map (·.id) = s.rows.map (·.id) := by
      rw [List.map_map]
      exact List.map_congr_left fun r _ => settling_id
    rw [hsame]
    exact s.ids

/-! ### What a tick does to what waits -/

variable {s : Orphans} {find : Lookup} {limit : ℕ}

theorem nodup_unresolved : s.unresolved.Nodup :=
  (List.Nodup.of_map _ s.ids).sublist List.filter_sublist

theorem mem_unresolved {r : OrphanRow} : r ∈ s.unresolved ↔ r ∈ s.rows ∧ r.resolved = false := by
  rw [unresolved, List.mem_filter, Bool.not_eq_true']

theorem eq_of_id {r r' : OrphanRow} (hr : r ∈ s.rows) (hr' : r' ∈ s.rows) (h : r.id = r'.id) :
    r = r' := List.inj_on_of_nodup_map s.ids hr hr' h

theorem selected_iff {r : OrphanRow} (hr : r ∈ s.rows) :
    (s.unresolvedOrphans limit).any (·.id = r.id) = true ↔ r ∈ s.unresolvedOrphans limit := by
  rw [List.any_eq_true]
  constructor
  · rintro ⟨r', hin, hid⟩
    have hrow : r' ∈ s.rows := (mem_unresolved.mp (Backlog.oldest_subperm.subset hin)).1
    exact eq_of_id hrow hr (of_decide_eq_true hid) ▸ hin
  · exact fun hin => ⟨r, hin, decide_eq_true rfl⟩

/-- A row is resolved, or stays as it is. -/
theorem settling_cases (find : Lookup) (limit : ℕ) {r : OrphanRow} (hr : r ∈ s.rows) :
    (r ∈ s.unresolvedOrphans limit ∧ (find r).isSome = true ∧
        (s.settling find limit r).resolved = true) ∨
      (¬ (r ∈ s.unresolvedOrphans limit ∧ (find r).isSome = true) ∧
        s.settling find limit r = r) := by
  unfold settling
  by_cases hin : r ∈ s.unresolvedOrphans limit
  · rw [if_pos ((selected_iff hr).mpr hin)]
    unfold OrphanRow.settled
    cases hfind : find r with
    | some task => exact .inl ⟨hin, rfl, rfl⟩
    | none => exact .inr ⟨fun h => Bool.false_ne_true h.2, rfl⟩
  · rw [if_neg fun h => hin ((selected_iff hr).mp h)]
    exact .inr ⟨fun h => hin h.1, rfl⟩

open Classical in
/-- **What a tick leaves** is what a round on the backlog leaves. -/
theorem unresolved_reconciled : (s.reconciled find limit).unresolved =
    Backlog.worked OrphanRow.receivedAt limit (fun r => (find r).isSome) s.unresolved := by
  have hkept : ∀ r ∈ s.rows.filter fun r => !(s.settling find limit r).resolved,
      s.settling find limit r = r := by
    intro r hr
    obtain ⟨hrow, hopen⟩ := List.mem_filter.mp hr
    rcases settling_cases find limit hrow with ⟨-, -, h⟩ | ⟨-, h⟩
    · rw [h] at hopen
      cases hopen
    · exact h
  calc (s.reconciled find limit).unresolved
      = (s.rows.filter fun r => !(s.settling find limit r).resolved).map
          (s.settling find limit) := List.filter_map
    _ = s.rows.filter fun r => !(s.settling find limit r).resolved :=
        (List.map_congr_left hkept).trans (List.map_id _)
    _ = _ := by
        rw [Backlog.worked, ← unresolvedOrphans, unresolved, List.filter_filter]
        refine List.filter_congr fun r hr => ?_
        rcases settling_cases find limit hr with ⟨hin, hfound, h⟩ | ⟨hnot, h⟩
        · have hout : (decide (r ∈ s.unresolvedOrphans limit) && (find r).isSome) = true :=
            Bool.and_eq_true_iff.mpr ⟨decide_eq_true hin, hfound⟩
          rw [h, hout]
          rfl
        · have hstays : (decide (r ∈ s.unresolvedOrphans limit) && (find r).isSome) = false :=
            Bool.eq_false_iff.mpr fun hout =>
              hnot ((Bool.and_eq_true_iff.mp hout).imp of_decide_eq_true id)
          rw [h, hstays]
          rfl

theorem unresolved_stashOrphan {now : Time} {orphan : OrphanCallback} :
    (s.stashOrphan now orphan).unresolved =
      s.unresolved ++ [{ orphan with id := s.nextId, receivedAt := now }] := by
  rw [unresolved, stashOrphan, List.filter_append]
  rfl

/-! ### Runs -/

/-- What happens to the table: a callback is stashed, or a tick of the inspector finds what it
finds, and its transaction commits or not. -/
inductive Happening : Type where
  | stash (now : Time) (orphan : OrphanCallback)
  | reconcile (find : Lookup) (commits : Bool)

def Happening.apply (limit : ℕ) (s : Orphans) : Happening → Orphans
  | stash now orphan => s.stashOrphan now orphan
  | reconcile find commits => if commits then s.reconciled find limit else s

def afterAll (limit : ℕ) (s : Orphans) (es : List Happening) : Orphans :=
  es.foldl (Happening.apply limit) s

/-- A tick that commits. -/
def Happening.commits : Happening → Bool
  | stash _ _ => false
  | reconcile _ commits => commits

/-- The orphans that came before this one and are not resolved. -/
def waitingBefore (x : OrphanRow) (s : Orphans) : List OrphanRow :=
  Backlog.older OrphanRow.receivedAt x s.unresolved

/-- Other callbacks come later than this one, and a tick finds a task for the orphans that have one,
among those that came no later. -/
def Steady (hasTask : OrphanRow → Bool) (x : OrphanRow) (s : Orphans) : Happening → Prop
  | .stash now _ => x.receivedAt < now
  | .reconcile find _ => ∀ r ∈ s.unresolved, r.receivedAt ≤ x.receivedAt →
      (find r).isSome = hasTask r

/-- The orphan was resolved. -/
def Resolved (x : OrphanRow) (s : Orphans) : Prop := ∃ r ∈ s.rows, r.id = x.id ∧ r.resolved = true

variable {hasTask : OrphanRow → Bool} {x : OrphanRow} {e : Happening} {es : List Happening}

/-- The orphans that wait and came no later were there before. -/
theorem unresolved_before (he : Steady hasTask x s e) {r : OrphanRow}
    (hr : r ∈ (e.apply limit s).unresolved) (hle : r.receivedAt ≤ x.receivedAt) :
    r ∈ s.unresolved := by
  cases e with
  | stash now orphan =>
      rw [Happening.apply, unresolved_stashOrphan] at hr
      rcases List.mem_append.mp hr with hr | hr
      · exact hr
      · rw [List.mem_singleton.mp hr] at hle
        exact absurd (lt_of_lt_of_le he hle) (lt_irrefl _)
  | reconcile find commits =>
      cases commits with
      | false => exact hr
      | true =>
          rw [Happening.apply, if_pos rfl, unresolved_reconciled] at hr
          exact (Backlog.mem_worked.mp hr).1

theorem Steady.after {e' : Happening} (he' : Steady hasTask x s e') (he : Steady hasTask x s e) :
    Steady hasTask x (e.apply limit s) e' := by
  cases e' with
  | stash now orphan => exact he'
  | reconcile find commits =>
      exact fun r hr hle => he' r (unresolved_before he hr hle) hle

theorem unresolved_before_all (hes : ∀ e ∈ es, Steady hasTask x s e) {r : OrphanRow}
    (hr : r ∈ (afterAll limit s es).unresolved) (hle : r.receivedAt ≤ x.receivedAt) :
    r ∈ s.unresolved := by
  induction es generalizing s with
  | nil => exact hr
  | cons e es ih =>
      have he := hes e List.mem_cons_self
      exact unresolved_before he
        (ih (fun e' h => (hes e' (List.mem_cons_of_mem _ h)).after he) hr) hle

/-- Those before an orphan that stay: there is no task for them. -/
def stuckBefore (hasTask : OrphanRow → Bool) (x : OrphanRow) (s : Orphans) : List OrphanRow :=
  (waitingBefore x s).filter (!hasTask ·)

/-- The tick finds a task for those before an orphan that have one. -/
theorem stuckBefore_eq {find : Lookup} {commits : Bool}
    (he : Steady hasTask x s (.reconcile find commits)) :
    (waitingBefore x s).filter (fun r => !(find r).isSome) = stuckBefore hasTask x s := by
  refine List.filter_congr fun r hr => ?_
  obtain ⟨hin, hlt⟩ := Backlog.mem_older.mp hr
  rw [he r hin hlt.le]

/-- **What a step does to those before an orphan.** -/
theorem waitingBefore_apply (hx : x ∈ s.unresolved) (hasT : hasTask x = true)
    (halone : ∀ r ∈ s.unresolved, r.receivedAt = x.receivedAt → r = x)
    (he : Steady hasTask x s e) :
    (waitingBefore x (e.apply limit s) = waitingBefore x s ∧ x ∈ (e.apply limit s).unresolved ∧
        e.commits = false) ∨
      (limit ≤ (waitingBefore x s).length ∧ x ∈ (e.apply limit s).unresolved ∧
        e.commits = true ∧ stuckBefore hasTask x (e.apply limit s) = stuckBefore hasTask x s ∧
        (waitingBefore x (e.apply limit s)).length +
          (limit - (stuckBefore hasTask x s).length) ≤ (waitingBefore x s).length) ∨
      ((waitingBefore x s).length < limit ∧ x ∉ (e.apply limit s).unresolved) := by
  cases e with
  | stash now orphan =>
      refine .inl ⟨?_, ?_, rfl⟩
      · have hlater : ¬ now < x.receivedAt := not_lt.mpr he.le
        rw [waitingBefore, Happening.apply, unresolved_stashOrphan, Backlog.older,
          List.filter_append, List.filter_singleton, decide_eq_false hlater]
        exact List.append_nil _
      · rw [Happening.apply, unresolved_stashOrphan]
        exact List.mem_append_left _ hx
  | reconcile find commits =>
      cases commits with
      | false => exact .inl ⟨rfl, hx, rfl⟩
      | true =>
          have happly : ((Happening.reconcile find true).apply limit s).unresolved =
              Backlog.worked OrphanRow.receivedAt limit (fun r => (find r).isSome) s.unresolved :=
            unresolved_reconciled
          refine .inr ?_
          by_cases hlong : limit ≤ (waitingBefore x s).length
          · refine .inl ⟨hlong, ?_, rfl, ?_, ?_⟩
            · rw [happly]
              refine Backlog.mem_worked.mpr ⟨hx, fun h => ?_⟩
              have hbefore := Backlog.oldest_subset_older nodup_unresolved hlong h.1
              exact lt_irrefl _ (Backlog.mem_older.mp hbefore).2
            · have hsame : stuckBefore hasTask x ((Happening.reconcile find true).apply limit s) =
                  (waitingBefore x ((Happening.reconcile find true).apply limit s)).filter
                    fun r => !(find r).isSome := by
                refine List.filter_congr fun r hr => ?_
                obtain ⟨hin, hlt⟩ := Backlog.mem_older.mp hr
                rw [he r (unresolved_before he hin hlt.le) hlt.le]
              rw [hsame, ← stuckBefore_eq he, waitingBefore, happly]
              exact Backlog.stuck_worked
            · rw [← stuckBefore_eq he, waitingBefore, happly]
              exact Backlog.length_older_worked nodup_unresolved hlong
          · refine .inr ⟨not_le.mp hlong, ?_⟩
            rw [happly]
            intro h
            have hlooked := (Backlog.mem_oldest_iff nodup_unresolved hx halone).mpr
              (not_le.mp hlong)
            have hready : (find x).isSome = true := (he x hx le_rfl).trans hasT
            exact (Backlog.mem_worked.mp h).2 ⟨hlooked, hready⟩

/-- Every tick an orphan waits through takes away from those before it. -/
theorem waitingBefore_afterAll (hasT : hasTask x = true)
    (halone : ∀ r ∈ s.unresolved, r.receivedAt = x.receivedAt → r = x)
    (hes : ∀ e ∈ es, Steady hasTask x s e) (hx : x ∈ (afterAll limit s es).unresolved) :
    es.countP Happening.commits * (limit - (stuckBefore hasTask x s).length) ≤
      (waitingBefore x s).length := by
  induction es generalizing s with
  | nil => simp
  | cons e es ih =>
      have he := hes e List.mem_cons_self
      have hrest : ∀ e' ∈ es, Steady hasTask x (e.apply limit s) e' := fun e' h =>
        (hes e' (List.mem_cons_of_mem _ h)).after he
      have hwas : x ∈ s.unresolved := unresolved_before_all hes hx le_rfl
      have hstep := ih (fun r hr hr' => halone r (unresolved_before he hr hr'.le) hr') hrest hx
      rw [List.countP_cons]
      rcases waitingBefore_apply hwas hasT halone he with
        ⟨hsame, -, hcommits⟩ | ⟨-, -, hcommits, hstuck, htaken⟩ | ⟨-, hgone⟩
      · have hstuck : stuckBefore hasTask x (e.apply limit s) = stuckBefore hasTask x s := by
          rw [stuckBefore, hsame, stuckBefore]
        rw [hsame, hstuck] at hstep
        rw [hcommits]
        simpa using hstep
      · rw [hstuck] at hstep
        rw [hcommits, if_pos rfl, Nat.succ_mul]
        omega
      · exact absurd (unresolved_before_all hrest hx le_rfl) hgone

/-- Where a whole batch before it stays, an orphan stays. -/
theorem waits_behind (hasT : hasTask x = true) (hx : x ∈ s.unresolved)
    (halone : ∀ r ∈ s.unresolved, r.receivedAt = x.receivedAt → r = x)
    (hstuck : limit ≤ (stuckBefore hasTask x s).length) (hes : ∀ e ∈ es, Steady hasTask x s e) :
    x ∈ (afterAll limit s es).unresolved := by
  induction es generalizing s with
  | nil => exact hx
  | cons e es ih =>
      have he := hes e List.mem_cons_self
      have hrest : ∀ e' ∈ es, Steady hasTask x (e.apply limit s) e' := fun e' h =>
        (hes e' (List.mem_cons_of_mem _ h)).after he
      have halone' : ∀ r ∈ (e.apply limit s).unresolved, r.receivedAt = x.receivedAt → r = x :=
        fun r hr hr' => halone r (unresolved_before he hr hr'.le) hr'
      rcases waitingBefore_apply hx hasT halone he with
        ⟨hsame, hstays, -⟩ | ⟨-, hstays, -, hkept, -⟩ | ⟨hshort, -⟩
      · refine ih hstays halone' ?_ hrest
        rwa [stuckBefore, hsame]
      · exact ih hstays halone' (hkept ▸ hstuck) hrest
      · have hle : (stuckBefore hasTask x s).length ≤ (waitingBefore x s).length :=
          List.length_filter_le _ _
        omega

/-- The row of the orphan is there: it waits, or was resolved. -/
def Filed (x : OrphanRow) (s : Orphans) : Prop :=
  ∃ r ∈ s.rows, r.id = x.id ∧ (r.resolved = true ∨ r = x)

theorem Filed.apply (h : Filed x s) : Filed x (e.apply limit s) := by
  obtain ⟨r, hr, hid, hcase⟩ := h
  cases e with
  | stash now orphan => exact ⟨r, List.mem_append_left _ hr, hid, hcase⟩
  | reconcile find commits =>
      cases commits with
      | false => exact ⟨r, hr, hid, hcase⟩
      | true =>
          refine ⟨s.settling find limit r, List.mem_map_of_mem hr, settling_id.trans hid, ?_⟩
          rcases settling_cases find limit hr with ⟨-, -, hresolved⟩ | ⟨-, hsame⟩
          · exact .inl hresolved
          · rwa [hsame]

theorem Filed.afterAll (h : Filed x s) : Filed x (afterAll limit s es) := by
  induction es generalizing s with
  | nil => exact h
  | cons e es ih => exact ih h.apply

/-- What is filed and does not wait was resolved. -/
theorem Filed.resolved_iff (h : Filed x s) (hx : x.resolved = false) :
    Resolved x s ↔ x ∉ s.unresolved := by
  constructor
  · rintro ⟨r, hr, hid, hresolved⟩ hin
    rw [eq_of_id hr (mem_unresolved.mp hin).1 hid, hx] at hresolved
    cases hresolved
  · intro hout
    obtain ⟨r, hr, hid, hresolved | rfl⟩ := h
    · exact ⟨r, hr, hid, hresolved⟩
    · exact absurd (mem_unresolved.mpr ⟨hr, hx⟩) hout

/-- **Which orphans are resolved.**  Of those that came before an orphan that has its task, some
have none.  Where they are fewer than a batch, the orphan is resolved once the ticks have taken the
others away; where they fill one, it is never resolved. -/
theorem orphans_resolved (hx : x ∈ s.unresolved) (hasT : hasTask x = true)
    (halone : ∀ r ∈ s.unresolved, r.receivedAt = x.receivedAt → r = x) :
    ((stuckBefore hasTask x s).length < limit → ∀ es, (∀ e ∈ es, Steady hasTask x s e) →
      (waitingBefore x s).length / (limit - (stuckBefore hasTask x s).length) <
        es.countP Happening.commits → Resolved x (afterAll limit s es)) ∧
    (limit ≤ (stuckBefore hasTask x s).length → ∀ es, (∀ e ∈ es, Steady hasTask x s e) →
      ¬ Resolved x (afterAll limit s es)) := by
  obtain ⟨hrow, hopen⟩ := mem_unresolved.mp hx
  have hfiled : ∀ es, Filed x (afterAll limit s es) := fun es =>
    Filed.afterAll ⟨x, hrow, rfl, .inr rfl⟩
  constructor
  · intro hfew es hes hticks
    refine ((hfiled es).resolved_iff hopen).mpr fun hwaits => ?_
    have htaken := waitingBefore_afterAll hasT halone hes hwaits
    have hle := (Nat.le_div_iff_mul_le (Nat.sub_pos_of_lt hfew)).mpr htaken
    omega
  · intro hfull es hes hresolved
    exact ((hfiled es).resolved_iff hopen).mp hresolved (waits_behind hasT hx halone hfull hes)

/-- A callback of the channel, for an id. -/
def stray (upstreamTaskId : String) : OrphanCallback := ⟨"channel", upstreamTaskId, none, none⟩

/-- Two orphans, the first of them without a task. -/
def twoOrphans : Orphans := (empty.stashOrphan 0 (stray "lost")).stashOrphan 1 (stray "found")

def foundOrphan : OrphanRow := { stray "found" with id := 1, receivedAt := 1 }

def isFound (r : OrphanRow) : Bool := decide (r.upstreamTaskId = "found")

/-- A tick that finds a task for the second, and commits. -/
def oneTick : List Happening :=
  [.reconcile (fun r => if isFound r then some sampleRow else none) true]

/-- The second is resolved where a batch has room for both, and is not where it has room for one. -/
theorem second_orphan_resolved : Resolved foundOrphan (afterAll 200 twoOrphans oneTick) ∧
    ¬ Resolved foundOrphan (afterAll 1 twoOrphans oneTick) := by
  have hx : foundOrphan ∈ twoOrphans.unresolved := .tail _ (.head _)
  have hasT : isFound foundOrphan = true := by decide +kernel
  have halone : ∀ r ∈ twoOrphans.unresolved,
      r.receivedAt = foundOrphan.receivedAt → r = foundOrphan := by
    intro r hr hat
    rcases List.mem_cons.mp hr with rfl | hr
    · exact absurd hat (by decide +kernel)
    · exact List.mem_singleton.mp hr
  have hsteady : ∀ e ∈ oneTick, Steady isFound foundOrphan twoOrphans e := by
    intro e he
    obtain rfl := List.mem_singleton.mp he
    intro r _ _
    cases h : isFound r <;> simp [h]
  constructor
  · exact (orphans_resolved hx hasT halone).1 (by decide +kernel) oneTick hsteady
      (by decide +kernel)
  · exact (orphans_resolved hx hasT halone).2 (by decide +kernel) oneTick hsteady

end Orphans

end AsyncGateway
