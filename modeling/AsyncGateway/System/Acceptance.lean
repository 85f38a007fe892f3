import AsyncGateway.System.Intake

/-!
# System — one task for a key and a bucket

What holds of the table and of all calls in every run of the acceptance (`Tidy`): an owning call
has its row in the table, a call that was beaten or answers from a row has one of its key there, no
two calls drew one task id, and every answer is one the call may give.  Hence of any number of
calls with one key and bucket one inserts a task, and the others answer from it (`accept_once`).
-/

namespace AsyncGateway

open Interleave

/-! ### The answers of the table -/

/-- The operations whose answers the table does not know, and that leave it. -/
def AcceptOp.plain : AcceptOp → Bool
  | .findByIdempotency _ _ => false
  | .newTaskId => false
  | .insert _ => false
  | .write _ _ => false
  | _ => true

/-- What the answer to an operation is, and what it makes of the world. -/
inductive IntakeStep (w w' : IntakeWorld) : (o : AcceptOp) → Except Exn o.Ans → Prop where
  | failed (o : AcceptOp) (x : Exn) (table : w'.table = w.table) (issued : w'.issued = w.issued) :
      IntakeStep w w' o (.error x)
  | found (key : String) (bucket : ℤ) (table : w'.table = w.table)
      (issued : w'.issued = w.issued) :
      IntakeStep w w' (.findByIdempotency key bucket) (.ok (w.table.findByIdempotency key bucket))
  | drew (id : String) (table : w'.table = w.table) (issued : w'.issued = id :: w.issued)
      (length : id.length = 24) (fresh : id ∉ w.issued)
      (absent : ∀ row ∈ w.table.rows, row.taskId ≠ id) : IntakeStep w w' .newTaskId (.ok id)
  | inserted (row : AsyncTask) (table : w.table.insert row = some w'.table)
      (issued : w'.issued = w.issued) : IntakeStep w w' (.insert row) (.ok true)
  | taken (row : AsyncTask) (full : w.table.insert row = none) (table : w'.table = w.table)
      (issued : w'.issued = w.issued) : IntakeStep w w' (.insert row) (.ok false)
  | wrote (now : Time) (taskId : String) (op : DaoOp)
      (r : Except Exn (AcceptOp.Ans (.write taskId op)))
      (table : w'.table = (w.table.exec now taskId op).2) (issued : w'.issued = w.issued) :
      IntakeStep w w' (.write taskId op) r
  | plain (o : AcceptOp) (r : Except Exn o.Ans) (ho : o.plain = true) (table : w'.table = w.table)
      (issued : w'.issued = w.issued) : IntakeStep w w' o r

theorem intakeStep_of_respond {w w' : IntakeWorld} {o : AcceptOp} {γ : IntakeChoice}
    {r : Except Exn o.Ans} (h : intakeRespond w o γ = some (r, w')) : IntakeStep w w' o r := by
  unfold intakeRespond at h
  split at h
  · obtain ⟨⟨r₀, w₀⟩, h₀, he⟩ := Option.map_eq_some_iff.mp h
    cases he
    unfold intakeReply at h₀
    split at h₀
    all_goals try cases h₀
    · exact .failed _ _ rfl rfl
    all_goals try exact .plain _ _ rfl rfl rfl
    · exact .found _ _ rfl rfl
    · split at h₀
      · rename_i hs
        cases h₀
        exact .drew _ rfl rfl hs.1 hs.2.1 hs.2.2
      · cases h₀
    · split at h₀
      · cases h₀
        exact .inserted _ ‹_› rfl
      · cases h₀
        exact .taken _ ‹_› rfl rfl
    · exact .wrote _ _ _ _ rfl rfl
  · cases h

/-! ### The table and the calls -/

/-- Every row is there still, with its keys and the digest of its request. -/
def Table.Holds (tbl : Table) (row : AsyncTask) : Prop :=
  ∃ row' ∈ tbl.rows, row'.keys = row.keys ∧ row'.createReqDigest = row.createReqDigest

namespace Call

variable (I : Intake) (c : Call)

/-- What holds of one call, by the table and the task ids drawn. -/
structure Sound (table : Table) (issued : List String) : Prop where
  admitted : c.time ≠ none → 0 < I.maxDepth
  timed : c.stage ≠ .arriving → ∃ p, c.pair I = some p
  owns : c.stage = .owning → ∃ row ∈ table.rows, c.taskId = some row.taskId ∧
    c.pair I = some row.keys.idempotency ∧ row.createReqDigest = some (c.digest I)
  sees : ∀ row, c.stage = .seeing row → c.pair I = some row.keys.idempotency ∧ table.Holds row
  beaten : c.stage = .beaten → ∃ row ∈ table.rows, c.pair I = some row.keys.idempotency
  found : c.stage ≠ .vanished
  drawn : ∀ id, c.taskId = some id → id ∈ issued ∧ id.length = 24
  drafts : c.stage = .drafting → ∀ id, c.taskId = some id → ∀ row ∈ table.rows, row.taskId ≠ id
  answered : ∀ a, c.answer = some a → c.Answers I a

/-- What an operation it asked for says of a call. -/
def Did : AcceptOp → Prop
  | .putJson key _ _ => ∃ id, c.taskId = some id ∧
      (key = requestKey c.request.auth.tenant id ∨ key = responseKey c.request.auth.tenant id)
  | .putCredential id _ _ => c.stage = .owning ∧ c.taskId = some id
  | .enqueue id _ => c.stage = .owning ∧ c.taskId = some id
  | _ => True

end Call

/-- Whether an event inserts a row of that key and bucket. -/
def inserts (p : String × ℤ) : Event acceptEffects Exn IntakeWork → Bool
  | .act _ (.insert row) (.ok (b : Bool)) => b && decide (row.keys.idempotency = p)
  | _ => false

/-- **What holds of the table and all calls.** -/
structure Tidy (I : Intake) (first : Table) (w : IntakeWorld) (l : IntakeLog) : Prop where
  sound : ∀ t c, callOf I l t = some c → c.Sound I w.table w.issued
  distinct : ∀ t u c d id, callOf I l t = some c → callOf I l u = some d → c.taskId = some id →
    d.taskId = some id → t = u
  rows : ∀ row ∈ w.table.rows, (∃ row₀ ∈ first.rows, row₀.keys = row.keys) ∨
    ∃ t c, callOf I l t = some c ∧ c.stage = .owning ∧ c.taskId = some row.taskId
  did : ∀ t o r c, .act t o r ∈ l → callOf I l t = some c → c.Did o
  counted : ∀ p, (∀ row ∈ first.rows, row.keys.idempotency ≠ p) →
    (l.filter (inserts p)).length =
      (w.table.rows.filter fun row => row.keys.idempotency = p).length

section Keep

variable {I : Intake} {first : Table} {w w' : IntakeWorld} {l : IntakeLog} {c : Call}

/-- What holds of a call goes on to hold while the table grows. -/
theorem Call.Sound.grow {table table' : Table} {issued issued' : List String}
    (h : c.Sound I table issued) (hrows : ∀ row ∈ table.rows, table'.Holds row)
    (hnew : c.stage = .drafting → ∀ id, c.taskId = some id → ∀ row ∈ table'.rows, row.taskId ≠ id)
    (hissued : ∀ id ∈ issued, id ∈ issued') : c.Sound I table' issued' where
  admitted := h.admitted
  timed := h.timed
  owns hs := by
    obtain ⟨row, hm, hid, hp, hd⟩ := h.owns hs
    obtain ⟨row', hm', hk, hd'⟩ := hrows row hm
    exact ⟨row', hm', by rw [hid, ← show row'.taskId = row.taskId from congrArg Keys.taskId hk],
      by rw [hp, hk], hd'.trans hd⟩
  sees row hs := by
    obtain ⟨hp, row', hm, hk, hd⟩ := h.sees row hs
    obtain ⟨row'', hm', hk', hd'⟩ := hrows row' hm
    exact ⟨hp, row'', hm', hk'.trans hk, hd'.trans hd⟩
  beaten hs := by
    obtain ⟨row, hm, hp⟩ := h.beaten hs
    obtain ⟨row', hm', hk, -⟩ := hrows row hm
    exact ⟨row', hm', by rw [hp, hk]⟩
  found := h.found
  drawn id hid := ⟨hissued id (h.drawn id hid).1, (h.drawn id hid).2⟩
  drafts := hnew
  answered := h.answered

theorem callOf_of_ne {e : Event acceptEffects Exn IntakeWork} {u : ℕ} (hu : u ≠ e.thread) :
    callOf I (e :: l) u = callOf I l u := by
  unfold callOf
  rw [Protocol.after_of_ne hu]

theorem callOf_act {t : ℕ} {o : AcceptOp} {r : Except Exn o.Ans} (ht : callOf I l t = some c) :
    callOf I (.act t o r :: l) t = some (Call.next I c o r) := by
  rw [callOf_eq_some] at ht ⊢
  simp only [Protocol.after, ht]
  rfl

theorem callOf_fresh {t : ℕ} (h : ∀ e ∈ l, e.thread ≠ t) : callOf I l t = none := by
  unfold callOf
  rw [Protocol.after_of_fresh h]
  rfl

theorem Tidy.spawn {t : ℕ} {κ : IntakeWork} (h : Tidy I first w l)
    (hf : ∀ e ∈ l, e.thread ≠ t) : Tidy I first w (.spawn t κ :: l) := by
  have hnone := callOf_fresh (I := I) hf
  have hnew : ∀ d, callOf I (.spawn t κ :: l) t = some d → ∃ r, d = { request := r } := by
    intro d hd
    rw [callOf_eq_some] at hd
    simp only [Protocol.after, if_true] at hd
    cases κ with
    | create r =>
        cases hd
        exact ⟨r, rfl⟩
    | write other => cases hd
  have hold : ∀ {u d}, callOf I (.spawn t κ :: l) u = some d → u ≠ t → callOf I l u = some d :=
    fun hd hu => by rwa [callOf_of_ne hu] at hd
  refine ⟨fun u d hd => ?_, fun u v d d' id hd hd' hid hid' => ?_, fun row hr => ?_,
    fun u o r d he hd => ?_, fun p hp => ?_⟩
  · by_cases hu : u = t
    · subst hu
      obtain ⟨r, rfl⟩ := hnew d hd
      constructor <;> simp
    · exact h.sound u d (hold hd hu)
  · by_cases hu : u = t
    · subst hu
      obtain ⟨r, rfl⟩ := hnew d hd
      cases hid
    · by_cases hv : v = t
      · subst hv
        obtain ⟨r, rfl⟩ := hnew d' hd'
        cases hid'
      · exact h.distinct u v d d' id (hold hd hu) (hold hd' hv) hid hid'
  · obtain hf | ⟨u, d, hd, hs, hid⟩ := h.rows row hr
    · exact .inl hf
    · have hu : u ≠ t := by
        rintro rfl
        rw [hnone] at hd
        cases hd
      exact .inr ⟨u, d, (callOf_of_ne hu).trans hd, hs, hid⟩
  · rcases List.mem_cons.mp he with he | he
    · cases he
    · exact h.did u o r d he (hold hd (hf _ he))
  · simpa [inserts] using h.counted p hp

theorem Tidy.halt {t : ℕ} (h : Tidy I first w l) : Tidy I first w (.halt t :: l) := by
  have hstopped : ∀ {u d}, callOf I (.halt t :: l) u = some d →
      ∃ d₀, callOf I l u = some d₀ ∧ (d = d₀ ∨ d = { d₀ with halted := true }) := by
    intro u d hd
    by_cases hu : u = t
    · subst hu
      rw [callOf_eq_some] at hd
      simp only [Protocol.after, if_true] at hd
      cases hm : Protocol.after (M := intake I) (intakeRules I) l u with
      | call d₀ =>
          rw [hm] at hd
          cases hd
          exact ⟨d₀, callOf_eq_some.mpr hm, .inr rfl⟩
      | other write => rw [hm] at hd; cases hd
      | idle => rw [hm] at hd; cases hd
    · exact ⟨d, by rwa [callOf_of_ne hu] at hd, .inl rfl⟩
  refine ⟨fun u d hd => ?_, fun u v d d' id hd hd' hid hid' => ?_, fun row hr => ?_,
    fun u o r d he hd => ?_, fun p hp => ?_⟩
  · obtain ⟨d₀, h₀, rfl | rfl⟩ := hstopped hd
    · exact h.sound u d h₀
    · exact { h.sound u d₀ h₀ with }
  · obtain ⟨d₀, h₀, hd₀⟩ := hstopped hd
    obtain ⟨d₁, h₁, hd₁⟩ := hstopped hd'
    refine h.distinct u v d₀ d₁ id h₀ h₁ ?_ ?_
    · rcases hd₀ with rfl | rfl <;> exact hid
    · rcases hd₁ with rfl | rfl <;> exact hid'
  · obtain hf | ⟨u, d, hd, hs, hid⟩ := h.rows row hr
    · exact .inl hf
    · by_cases hu : u = t
      · subst hu
        refine .inr ⟨u, { d with halted := true }, ?_, hs, hid⟩
        rw [callOf_eq_some] at hd ⊢
        simp only [Protocol.after, hd]
        rfl
      · exact .inr ⟨u, d, (callOf_of_ne hu).trans hd, hs, hid⟩
  · rcases List.mem_cons.mp he with he | he
    · cases he
    · obtain ⟨d₀, h₀, rfl | rfl⟩ := hstopped hd
      · exact h.did u o r d he h₀
      · have hdid := h.did u o r d₀ he h₀
        cases o <;> exact hdid
  · simpa [inserts] using h.counted p hp

/-- An operation of one call: what must hold of the call afterwards, of the other calls, and of the
rows. -/
theorem Tidy.move {t : ℕ} {o : AcceptOp} {r : Except Exn o.Ans} (h : Tidy I first w l)
    (ht : callOf I l t = some c) (hself : (Call.next I c o r).Sound I w'.table w'.issued)
    (hothers : ∀ u d, u ≠ t → callOf I l u = some d → d.Sound I w'.table w'.issued)
    (hdid : ∀ o', c.Did o' ∨ o' = o → (Call.next I c o r).Did o')
    (hdistinct : ∀ id, (Call.next I c o r).taskId = some id → c.taskId = some id ∨ id ∉ w.issued)
    (hrows : ∀ row ∈ w'.table.rows, (∃ row₁ ∈ w.table.rows, row₁.keys = row.keys) ∨
      (Call.next I c o r).stage = .owning ∧ (Call.next I c o r).taskId = some row.taskId)
    (howns : c.stage = .owning → ∀ id, c.taskId = some id →
      (Call.next I c o r).stage = .owning ∧ (Call.next I c o r).taskId = some id)
    (hcount : ∀ p, ((Event.act t o r :: l).filter (inserts p)).length +
        (w.table.rows.filter fun row => row.keys.idempotency = p).length =
      (l.filter (inserts p)).length +
        (w'.table.rows.filter fun row => row.keys.idempotency = p).length) :
    Tidy I first w' (.act t o r :: l) := by
  have hact := callOf_act (o := o) (r := r) ht
  have hcases : ∀ {u d}, callOf I (.act t o r :: l) u = some d →
      u = t ∧ d = Call.next I c o r ∨ u ≠ t ∧ callOf I l u = some d := by
    intro u d hd
    by_cases hu : u = t
    · subst hu
      rw [hact] at hd
      exact .inl ⟨rfl, (Option.some.inj hd).symm⟩
    · exact .inr ⟨hu, by rwa [callOf_of_ne hu] at hd⟩
  -- the id it has is its own, or one nobody drew before
  have hother : ∀ {u d id}, u ≠ t → callOf I l u = some d → d.taskId = some id →
      (Call.next I c o r).taskId ≠ some id := by
    intro u d id hu hd hid hn
    rcases hdistinct id hn with hc | hc
    · exact hu (h.distinct u t d c id hd ht hid hc)
    · exact hc ((h.sound u d hd).drawn id hid).1
  refine ⟨fun u d hd => ?_, fun u v d d' id hd hd' hid hid' => ?_, fun row hr => ?_,
    fun u o' r' d he hd => ?_, fun p hp => ?_⟩
  · rcases hcases hd with ⟨-, rfl⟩ | ⟨hu, hd₀⟩
    · exact hself
    · exact hothers u d hu hd₀
  · rcases hcases hd with ⟨hu, rfl⟩ | ⟨hu, hd₀⟩ <;>
      rcases hcases hd' with ⟨hv, rfl⟩ | ⟨hv, hd₁⟩
    · rw [hu, hv]
    · exact absurd hid (hother hv hd₁ hid')
    · exact absurd hid' (hother hu hd₀ hid)
    · exact h.distinct u v d d' id hd₀ hd₁ hid hid'
  · rcases hrows row hr with ⟨row₁, hm, hk⟩ | ⟨hs, hid⟩
    · rcases h.rows row₁ hm with ⟨row₀, hm₀, hk₀⟩ | ⟨u, d, hd, hs, hid⟩
      · exact .inl ⟨row₀, hm₀, hk₀.trans hk⟩
      · rw [show row₁.taskId = row.taskId from congrArg Keys.taskId hk] at hid
        by_cases hu : u = t
        · subst hu
          rw [ht] at hd
          cases hd
          exact .inr ⟨u, _, hact, howns hs _ hid⟩
        · exact .inr ⟨u, d, by rwa [callOf_of_ne hu], hs, hid⟩
    · exact .inr ⟨t, _, hact, hs, hid⟩
  · rcases List.mem_cons.mp he with he₀ | he₀
    · cases he₀
      rw [hact] at hd
      cases hd
      exact hdid o (.inr rfl)
    · rcases hcases hd with ⟨hu, rfl⟩ | ⟨hu, hd₀⟩
      · exact hdid o' (.inl (h.did t o' r' c (hu ▸ he₀) ht))
      · exact h.did u o' r' d he₀ hd₀
  · have := hcount p
    rw [h.counted p hp] at this
    omega

/-- The row of every task is there after an operation of another process, under its keys. -/
theorem Table.holds_exec {tbl : Table} {now : Time} {taskId : String} {op : DaoOp}
    (hop : ∀ now row, (op.exec now row).2.createReqDigest = row.createReqDigest) :
    ∀ row ∈ tbl.rows, (tbl.exec now taskId op).2.Holds row := by
  intro row hm
  refine ⟨written now taskId op row, List.mem_map_of_mem hm, written_keys now taskId op row, ?_⟩
  unfold written
  split
  · exact hop now row
  · rfl

theorem Table.mem_exec {tbl : Table} {now : Time} {taskId : String} {op : DaoOp} {row : AsyncTask}
    (h : row ∈ (tbl.exec now taskId op).2.rows) : ∃ row₁ ∈ tbl.rows, row₁.keys = row.keys := by
  obtain ⟨row₁, hm, rfl⟩ := List.mem_map.mp h
  exact ⟨row₁, hm, (written_keys now taskId op row₁).symm⟩

theorem Table.length_filter_exec {tbl : Table} {now : Time} {taskId : String} {op : DaoOp}
    (p : String × ℤ) :
    ((tbl.exec now taskId op).2.rows.filter fun row => row.keys.idempotency = p).length =
      (tbl.rows.filter fun row => row.keys.idempotency = p).length := by
  simp only [exec, update, List.filter_map, List.length_map]
  congr 1
  exact List.filter_congr fun row _ => by simp [written_keys]

/-- What an operation leaves of a call that has drawn no task id, looked nothing up and inserted
nothing with it. -/
theorem Call.next_calm {o : AcceptOp} {r : Except Exn o.Ans} (hans : c.answer = none)
    (ha : c.Allows I o) (hcalm : o.plain = true ∨ ∃ x, r = .error x) :
    (Call.next I c o r).request = c.request ∧ (Call.next I c o r).taskId = c.taskId ∧
      (Call.next I c o r).stage = c.stage ∧
      ((Call.next I c o r).time = c.time ∨ c.stage = .arriving ∧ 0 < I.maxDepth) ∧
      ∀ a, (Call.next I c o r).answer = some a → (Call.next I c o r).Answers I a := by
  cases o with
  | respond answer =>
      refine ⟨rfl, rfl, rfl, .inl rfl, fun a hr => ?_⟩
      cases hr
      cases answer <;> exact ha
  | tryAcquire channel =>
      rcases r with x | (d : SlotDecision)
      · exact ⟨rfl, rfl, rfl, .inl rfl, by simp [Call.next, hans]⟩
      · by_cases hd : d.granted = true <;> simp [Call.next, hans, hd]
  | depth queue =>
      rcases r with x | (n : ℕ)
      · exact ⟨rfl, rfl, rfl, .inl rfl, by simp [Call.next, hans]⟩
      · by_cases hd : I.maxDepth ≤ n <;> simp [Call.next, hans, hd]
  | utcnow =>
      rcases r with x | (now : Time)
      · exact ⟨rfl, rfl, rfl, .inl rfl, by simp [Call.next, hans]⟩
      · exact ⟨rfl, rfl, rfl, .inr ha.2, by simp [Call.next, hans]⟩
  | findByIdempotency key bucket =>
      obtain hp | ⟨x, rfl⟩ := hcalm
      · cases hp
      · exact ⟨rfl, rfl, rfl, .inl rfl, by simp [Call.next, hans]⟩
  | newTaskId =>
      obtain hp | ⟨x, rfl⟩ := hcalm
      · cases hp
      · exact ⟨rfl, rfl, rfl, .inl rfl, by simp [Call.next, hans]⟩
  | insert row =>
      obtain hp | ⟨x, rfl⟩ := hcalm
      · cases hp
      · exact ⟨rfl, rfl, rfl, .inl rfl, by simp [Call.next, hans]⟩
  | write taskId op => exact ha.elim
  | _ =>
      cases r <;> exact ⟨rfl, rfl, rfl, .inl rfl, by simp [Call.next, hans]⟩

/-- A table that is the same holds its rows. -/
theorem Table.holds_self {tbl : Table} : ∀ row ∈ tbl.rows, tbl.Holds row :=
  fun row hm => ⟨row, hm, rfl, rfl⟩

/-- What a call did it did, as long as its task id stays, and its ownership. -/
theorem Call.Did.mono {c' : Call} {o : AcceptOp} (h : c.Did o) (hr : c'.request = c.request)
    (hid : ∀ id, c.taskId = some id → c'.taskId = some id)
    (hs : c.stage = .owning → c'.stage = .owning) : c'.Did o := by
  cases o with
  | putJson key payload ttl =>
      obtain ⟨id, ht, hk⟩ := h
      exact ⟨id, hid id ht, by rwa [hr]⟩
  | putCredential id value ttl => exact ⟨hs h.1, hid id h.2⟩
  | enqueue id message => exact ⟨hs h.1, hid id h.2⟩
  | _ => trivial

/-- The table goes on under a call that did nothing to it. -/
theorem Tidy.calm {t : ℕ} {o : AcceptOp} {r : Except Exn o.Ans} (h : Tidy I first w l)
    (ht : callOf I l t = some c) (hans : c.answer = none) (ha : c.Allows I o)
    (hcalm : o.plain = true ∨ ∃ x, r = .error x) (htable : w'.table = w.table)
    (hissued : w'.issued = w.issued) : Tidy I first w' (.act t o r :: l) := by
  obtain ⟨hreq, hid, hs, htime, hanswer⟩ := Call.next_calm (r := r) hans ha hcalm
  have hc := h.sound t c ht
  have hpair : c.stage ≠ .arriving → (Call.next I c o r).pair I = c.pair I := fun hne => by
    simp only [Call.pair, hreq, htime.resolve_right fun h => hne h.1]
  have hdigest : (Call.next I c o r).digest I = c.digest I := by simp only [Call.digest, hreq]
  have hdid : (Call.next I c o r).Did o := by
    cases o with
    | putJson key payload ttl =>
        obtain ⟨-, id, ht, hk⟩ := ha
        exact ⟨id, hid.trans ht, by rwa [hreq]⟩
    | putCredential id value ttl => exact ⟨hs.trans ha.1, hid.trans ha.2⟩
    | enqueue id message => exact ⟨hs.trans ha.1, hid.trans ha.2⟩
    | _ => trivial
  -- the call keeps its request, its id and its stage, so each clause carries over
  refine h.move ht ?_ ?_ ?_ ?_ ?_ ?_ ?_
  · rw [htable, hissued]
    refine ⟨fun hn => ?_, fun hn => ?_, fun ho => ?_, fun row hrow => ?_, fun hb => ?_, ?_, ?_, ?_,
      hanswer⟩
    · rcases htime with he | he
      · exact hc.admitted (he ▸ hn)
      · exact he.2
    · rw [hs] at hn
      rw [hpair hn]
      exact hc.timed hn
    · rw [hs] at ho
      rw [hpair (by simp [ho]), hdigest, hid]
      exact hc.owns ho
    · rw [hs] at hrow
      rw [hpair (by simp [hrow])]
      exact hc.sees row hrow
    · rw [hs] at hb
      rw [hpair (by simp [hb])]
      exact hc.beaten hb
    · rw [hs]
      exact hc.found
    · rw [hid]
      exact hc.drawn
    · rw [hs, hid]
      exact hc.drafts
  · rw [htable, hissued]
    exact fun u d _ hd => h.sound u d hd
  · rintro o' (hd | rfl)
    · exact hd.mono hreq (fun id he => hid.trans he) fun he => hs.trans he
    · exact hdid
  · rw [hid]
    exact fun id he => .inl he
  · rw [htable]
    exact fun row hm => .inl ⟨row, hm, rfl⟩
  · rw [hs, hid]
    exact fun ho id he => ⟨ho, he⟩
  · have hins : ∀ p, inserts p (.act t o r) = false := by
      intro p
      rcases hcalm with hp | ⟨x, rfl⟩
      · cases o <;> first | rfl | cases hp
      · cases o <;> rfl
    simp [hins, htable]

/-- What an operation of another process does. -/
theorem Tidy.wrote {t : ℕ} {e : Event acceptEffects Exn IntakeWork} (h : Tidy I first w l)
    (other : OtherWrite) (he : e.thread = t) (hnone : callOf I l t = none)
    (hnone' : callOf I (e :: l) t = none) (hins : ∀ p, inserts p e = false)
    (htable : (∃ now, w'.table = (w.table.exec now other.taskId other.op).2) ∨ w'.table = w.table)
    (hissued : w'.issued = w.issued) : Tidy I first w' (e :: l) := by
  have hcall : ∀ u, callOf I (e :: l) u = callOf I l u := by
    intro u
    by_cases hu : u = t
    · rw [hu, hnone, hnone']
    · exact callOf_of_ne (he ▸ hu)
  -- it moves no key, so the rows, their order and their number stay
  have hholds : ∀ row ∈ w.table.rows, w'.table.Holds row := by
    rcases htable with ⟨now, hw⟩ | hw <;> rw [hw]
    · exact Table.holds_exec other.keeps
    · exact Table.holds_self
  have hmem : ∀ row ∈ w'.table.rows, ∃ row₁ ∈ w.table.rows, row₁.keys = row.keys := by
    rcases htable with ⟨now, hw⟩ | hw <;> rw [hw]
    · exact fun row => Table.mem_exec
    · exact fun row hm => ⟨row, hm, rfl⟩
  have hcount : ∀ p, (w'.table.rows.filter fun row => row.keys.idempotency = p).length =
      (w.table.rows.filter fun row => row.keys.idempotency = p).length := by
    rcases htable with ⟨now, hw⟩ | hw <;> rw [hw]
    · exact Table.length_filter_exec
    · exact fun p => rfl
  refine ⟨fun u d hd => ?_, fun u v d d' id hd hd' => ?_, fun row hr => ?_,
    fun u o r d hm hd => ?_, fun p hp => ?_⟩
  · rw [hcall] at hd
    refine (h.sound u d hd).grow hholds (fun hs id hid row hr => ?_) fun id hid => hissued ▸ hid
    obtain ⟨row₁, hm, hk⟩ := hmem row hr
    rw [← show row₁.taskId = row.taskId from congrArg Keys.taskId hk]
    exact (h.sound u d hd).drafts hs id hid row₁ hm
  · rw [hcall] at hd hd'
    exact h.distinct u v d d' id hd hd'
  · obtain ⟨row₁, hm, hk⟩ := hmem row hr
    rcases h.rows row₁ hm with ⟨row₀, hm₀, hk₀⟩ | ⟨u, d, hd, hs, hid⟩
    · exact .inl ⟨row₀, hm₀, hk₀.trans hk⟩
    · rw [show row₁.taskId = row.taskId from congrArg Keys.taskId hk] at hid
      exact .inr ⟨u, d, (hcall u).trans hd, hs, hid⟩
  · rw [hcall] at hd
    rcases List.mem_cons.mp hm with rfl | hm
    · rw [← he] at hnone
      rw [show u = (Event.act u o r : Event acceptEffects Exn IntakeWork).thread from rfl,
        hnone] at hd
      cases hd
    · exact h.did u o r d hm hd
  · rw [List.filter_cons_of_neg (by simp [hins]), h.counted p hp, hcount]

/-- A call that looked its key up, or was beaten to the insert. -/
theorem Tidy.still {t : ℕ} {o : AcceptOp} {r : Except Exn o.Ans} (h : Tidy I first w l)
    (stage : CallStage) (ht : callOf I l t = some c)
    (hnext : Call.next I c o r = { c with stage := stage }) (hs : c.stage ≠ .owning)
    (hself : Call.Sound I { c with stage := stage } w.table w.issued)
    (hdid : Call.Did { c with stage := stage } o)
    (hins : ∀ p, inserts p (.act t o r) = false) (htable : w'.table = w.table)
    (hissued : w'.issued = w.issued) : Tidy I first w' (.act t o r :: l) := by
  refine h.move ht ?_ ?_ ?_ ?_ ?_ ?_ ?_ <;> try rw [hnext]
  · rwa [htable, hissued]
  · rw [htable, hissued]
    exact fun u d _ hd => h.sound u d hd
  · rintro o' (hd | rfl)
    · exact hd.mono rfl (fun id he => he) fun he => absurd he hs
    · exact hdid
  · exact fun id he => .inl he
  · rw [htable]
    exact fun row hm => .inl ⟨row, hm, rfl⟩
  · exact fun he => absurd he hs
  · simp [hins, htable]

/-- A call that was not answered owes no answer at another stage either. -/
theorem Call.answers_of_open {stage : CallStage} (hans : c.answer = none) :
    ∀ a, Call.answer { c with stage := stage } = some a →
      Call.Answers I { c with stage := stage } a := by
  intro a he
  rw [show Call.answer { c with stage := stage } = c.answer from rfl, hans] at he
  cases he

/-- A call that looks its key up sees the row there, or none. -/
theorem Tidy.looksUp {t : ℕ} {key : String} {bucket : ℤ} (h : Tidy I first w l)
    (ht : callOf I l t = some c) (hans : c.answer = none)
    (ha : c.Allows I (.findByIdempotency key bucket)) (htable : w'.table = w.table)
    (hissued : w'.issued = w.issued) :
    Tidy I first w'
      (.act t (.findByIdempotency key bucket) (.ok (w.table.findByIdempotency key bucket)) :: l) := by
  have hc := h.sound t c ht
  obtain ⟨hp, hs⟩ := ha
  have hne : c.stage ≠ .owning := by rcases hs with hs | hs <;> simp [hs]
  cases hf : w.table.findByIdempotency key bucket with
  | none =>
      -- a call that was beaten finds the row that beat it, which no write takes away
      have harrive : c.stage = .arriving := by
        refine hs.resolve_right fun hb => ?_
        obtain ⟨row, hm, hr⟩ := hc.beaten hb
        rw [hp] at hr
        exact Table.findByIdempotency_eq_none.mp hf row hm (Option.some.inj hr).symm
      refine h.still .free ht (by simp [Call.next, harrive]) hne ?_ trivial
        (fun p => rfl) htable hissued
      exact ⟨hc.admitted, fun _ => ⟨_, hp⟩, by simp, by simp, by simp, by simp, hc.drawn,
        by simp, Call.answers_of_open hans⟩
  | some row =>
      obtain ⟨hm, hr⟩ := Table.findByIdempotency_eq_some.mp hf
      refine h.still (.seeing row) ht rfl hne ?_ trivial (fun p => rfl) htable hissued
      refine ⟨hc.admitted, fun _ => ⟨_, hp⟩, by simp, fun row' he => ?_, by simp, by simp,
        hc.drawn, by simp, Call.answers_of_open hans⟩
      cases he
      exact ⟨hp.trans (congrArg some hr.symm), row, hm, rfl, rfl⟩

/-- A call draws a task id that nobody has. -/
theorem Tidy.draws {t : ℕ} {id : String} (h : Tidy I first w l) (ht : callOf I l t = some c)
    (hans : c.answer = none) (ha : c.Allows I .newTaskId) (htable : w'.table = w.table)
    (hissued : w'.issued = id :: w.issued) (hlength : id.length = 24) (hfresh : id ∉ w.issued)
    (habsent : ∀ row ∈ w.table.rows, row.taskId ≠ id) :
    Tidy I first w' (.act t .newTaskId (.ok id) :: l) := by
  have hc := h.sound t c ht
  obtain ⟨hs, hid⟩ := ha
  have hne : c.stage ≠ .owning := by simp [hs]
  refine h.move ht ?_ ?_ ?_ ?_ ?_ ?_ ?_
  · rw [htable, hissued]
    refine ⟨hc.admitted, fun _ => hc.timed (by simp [hs]), by simp [Call.next],
      by simp [Call.next], by simp [Call.next], by simp [Call.next], ?_, ?_, ?_⟩
    · intro id' he
      cases he
      exact ⟨List.mem_cons_self, hlength⟩
    · intro _ id' he
      cases he
      exact habsent
    · intro a he
      rw [show (Call.next I c .newTaskId (.ok id)).answer = c.answer from rfl, hans] at he
      cases he
  · rw [htable, hissued]
    exact fun u d _ hd => (h.sound u d hd).grow Table.holds_self (h.sound u d hd).drafts
      fun id' hm => List.mem_cons_of_mem _ hm
  · rintro o' (hd | rfl)
    · exact hd.mono rfl (fun id' he => by rw [hid] at he; cases he) fun he => absurd he hne
    · trivial
  · intro id' he
    cases he
    exact .inr hfresh
  · rw [htable]
    exact fun row hm => .inl ⟨row, hm, rfl⟩
  · exact fun he => absurd he hne
  · simp [htable, inserts]

/-- A call inserts its row, which the constraints have room for, and owns the task. -/
theorem Tidy.inserted {t : ℕ} {row : AsyncTask} (h : Tidy I first w l)
    (ht : callOf I l t = some c) (hans : c.answer = none) (ha : c.Allows I (.insert row))
    (htable : w.table.insert row = some w'.table) (hissued : w'.issued = w.issued) :
    Tidy I first w' (.act t (.insert row) (.ok true) :: l) := by
  have hc := h.sound t c ht
  obtain ⟨hs, id, hid, rfl, hp, hd⟩ := ha
  have hne : c.stage ≠ .owning := by simp [hs]
  obtain ⟨hdistinct, hrows⟩ := Table.insert_eq_some.mp htable
  have hholds : ∀ row ∈ w.table.rows, w'.table.Holds row := fun row' hm =>
    ⟨row', hrows ▸ List.mem_cons_of_mem _ hm, rfl, rfl⟩
  refine h.move ht ?_ ?_ ?_ ?_ ?_ ?_ ?_
  · rw [hissued]
    refine ⟨hc.admitted, fun _ => ⟨_, hp⟩, fun _ => ?_, by simp [Call.next], by simp [Call.next],
      by simp [Call.next], hc.drawn, by simp [Call.next], ?_⟩
    · exact ⟨row, hrows ▸ List.mem_cons_self, hid, hp, hd⟩
    · exact Call.answers_of_open hans
  · -- no other call drafts under the id, as no two drew the same
    intro u d hu hdu
    rw [hissued]
    refine (h.sound u d hdu).grow hholds (fun hsd id' hid' row' hm => ?_) fun id hm => hm
    rw [hrows] at hm
    rcases List.mem_cons.mp hm with rfl | hm
    · rintro rfl
      exact hu (h.distinct u t d c _ hdu ht hid' hid)
    · exact (h.sound u d hdu).drafts hsd id' hid' row' hm
  · rintro o' (hd | rfl)
    · exact hd.mono rfl (fun id' he => he) fun he => absurd he hne
    · trivial
  · exact fun id' he => .inl he
  · intro row' hm
    rw [hrows] at hm
    rcases List.mem_cons.mp hm with rfl | hm
    · exact .inr ⟨rfl, hid⟩
    · exact .inl ⟨row', hm, rfl⟩
  · exact fun he => absurd he hne
  · intro p
    rw [hrows]
    by_cases hk : row.keys.idempotency = p
    · simp only [inserts, hk, List.filter_cons, decide_true, Bool.and_true, if_true,
        List.length_cons]
      omega
    · simp [inserts, hk]

/-- A call whose row the constraints refuse was beaten by one of its key: nobody else has its task
id. -/
theorem Tidy.beaten {t : ℕ} {row : AsyncTask} (h : Tidy I first w l)
    (ht : callOf I l t = some c) (hans : c.answer = none) (ha : c.Allows I (.insert row))
    (hfull : w.table.insert row = none) (htable : w'.table = w.table)
    (hissued : w'.issued = w.issued) :
    Tidy I first w' (.act t (.insert row) (.ok false) :: l) := by
  have hc := h.sound t c ht
  obtain ⟨hs, id, hid, rfl, hp, hd⟩ := ha
  have hne : c.stage ≠ .owning := by simp [hs]
  refine h.still .beaten ht rfl hne ?_ trivial (fun p => rfl) htable hissued
  refine ⟨hc.admitted, fun _ => ⟨_, hp⟩, by simp, by simp, fun _ => ?_, by simp, hc.drawn,
    by simp, Call.answers_of_open hans⟩
  obtain ⟨row', hm, he | he⟩ := Table.insert_eq_none hfull
  · exact absurd he (hc.drafts hs _ hid row' hm)
  · exact ⟨row', hm, by rw [he]; exact hp⟩

/-- What is done by a call keeps the table and the calls in order. -/
theorem Tidy.acted {t : ℕ} {o : AcceptOp} {r : Except Exn o.Ans} (h : Tidy I first w l)
    (ht : callOf I l t = some c) (hans : c.answer = none) (ha : c.Allows I o)
    (hstep : IntakeStep w w' o r) : Tidy I first w' (.act t o r :: l) := by
  cases hstep with
  | failed _ x htable hissued => exact h.calm ht hans ha (.inr ⟨x, rfl⟩) htable hissued
  | plain _ _ ho htable hissued => exact h.calm ht hans ha (.inl ho) htable hissued
  | wrote now taskId op r htable hissued => exact ha.elim
  | found key bucket htable hissued => exact h.looksUp ht hans ha htable hissued
  | drew id htable hissued hlength hfresh habsent =>
      exact h.draws ht hans ha htable hissued hlength hfresh habsent
  | inserted row htable hissued => exact h.inserted ht hans ha htable hissued
  | taken row hfull htable hissued => exact h.beaten ht hans ha hfull htable hissued

/-- Every operation keeps the table and the calls in order. -/
theorem Tidy.act {t : ℕ} {o : AcceptOp} {r : Except Exn o.Ans} {γ : IntakeChoice}
    (h : Tidy I first w l)
    (ha : (intakeRules I).allows (Protocol.after (M := intake I) (intakeRules I) l t) o)
    (hw : intakeRespond w o γ = some (r, w')) : Tidy I first w' (.act t o r :: l) := by
  have hstep := intakeStep_of_respond hw
  cases hm : Protocol.after (M := intake I) (intakeRules I) l t with
  | call c =>
      rw [hm] at ha
      exact h.acted (callOf_eq_some.mpr hm) ha.1 ha.2 hstep
  | idle =>
      rw [hm] at ha
      exact ha.elim
  | other write =>
      rw [hm] at ha
      have ho : o = .write write.taskId write.op := ha
      subst ho
      have hnone : callOf I l t = none := by simp [callOf, hm]
      have hnone' : ∀ r, callOf I (.act t (.write write.taskId write.op) r :: l) t = none := by
        intro r
        simp only [callOf, Protocol.after, hm]
        rfl
      cases hstep with
      | failed _ x htable hissued =>
          exact h.wrote write rfl hnone (hnone' _) (fun p => rfl) (.inr htable) hissued
      | wrote now taskId op r htable hissued =>
          exact h.wrote write rfl hnone (hnone' _) (fun p => by cases r <;> rfl)
            (.inl ⟨now, htable⟩) hissued
      | plain _ _ ho htable hissued => cases ho

theorem Tidy.initial : Tidy I w.table w [] := by
  have hnone : ∀ t, callOf I [] t = none := fun t => rfl
  refine ⟨by simp [hnone], by simp [hnone], fun row hm => .inl ⟨row, hm, rfl⟩, by simp,
    fun p hp => ?_⟩
  simp only [List.filter_nil, List.length_nil]
  rw [List.filter_eq_nil_iff.mpr fun row hm => by simpa using hp row hm]
  rfl

/-- **In every run of the acceptance the table and the calls are in order.** -/
theorem tidy_of_run {G : (intake I).Condition} {cfg : Config (intake I)}
    (run : Run G ((intake I).initial w) cfg) : Tidy I w.table cfg.world cfg.log :=
  Run.invariant (M := intake I) (Tidy I w.table) follows_intake (Keeps.initial w) Tidy.initial
    (fun _ _ _ _ hf h => h.spawn hf) (fun _ _ _ _ _ _ _ h ha hw _ => h.act ha hw)
    (fun _ _ _ h => h.halt) run

end Keep

/-! ### One task for a key and a bucket -/

/-- Strings with ends of one length are the same only where their ends are. -/
theorem end_eq_of_append {a b s s' : String} (hl : s.length = s'.length) (h : a ++ s = b ++ s') :
    s = s' := by
  have ht : a.toList ++ s.toList = b.toList ++ s'.toList := by
    rw [← String.toList_append, ← String.toList_append, h]
  exact String.toList_inj.mp (List.append_inj_right' ht (by simpa [← String.length_toList] using hl))

/-- The keys of the body and the response of a task are those of no other task. -/
theorem key_ne {tenant tenant' id id' key : String} (hl : id.length = id'.length) (hne : id ≠ id')
    (hk : key = requestKey tenant id ∨ key = responseKey tenant id) :
    key ≠ requestKey tenant' id' ∧ key ≠ responseKey tenant' id' := by
  constructor <;> rintro rfl <;> rcases hk with hk | hk <;>
    exact hne (end_eq_of_append hl hk.symm)

theorem Table.length_filter_le (tbl : Table) (p : String × ℤ) :
    (tbl.rows.filter fun row => row.keys.idempotency = p).length ≤ 1 := by
  have h := List.nodup_iff_count_le_one.mp tbl.idempotency p
  rw [List.count, List.countP_map, List.countP_eq_length_filter] at h
  convert h using 3
  ext row
  exact (Bool.beq_eq_decide_eq _ _).symm

/-- Whether the digest of a row's request is another one. -/
theorem conflicts_iff {row : AsyncTask} {d digest : String} (hrow : row.createReqDigest = some d)
    (hd : d ≠ "") (hdigest : digest ≠ "") : conflicts row digest = true ↔ d ≠ digest := by
  have hn : nonEmpty (some d) = some d := nonEmpty_eq_some.mpr ⟨rfl, hd⟩
  simp [conflicts, hrow, hn, hdigest]

theorem Call.digest_ne_empty {I : Intake} {c : Call} : c.digest I ≠ "" := by
  rw [Call.digest, Intake.idem, resolveKey_bodyDigest]
  exact bodyDigest_ne_empty _ _ _

/-- What a call may have asked for that does not hold the row of its key: no message, no credential,
and nothing in the place of the row's body or response. -/
def Harmless (row : AsyncTask) : AcceptOp → Prop
  | .enqueue _ _ => False
  | .putCredential _ _ _ => False
  | .putJson key _ _ => ∀ tenant, key ≠ requestKey tenant row.taskId ∧
      key ≠ responseKey tenant row.taskId
  | _ => True

section Once

variable {I : Intake} {first : Table} {w : IntakeWorld} {l : IntakeLog} {key : String} {bucket : ℤ}
  {row : AsyncTask}

/-- The row of a key that was free was inserted by a call, and has the digest of its body. -/
theorem Tidy.owner (h : Tidy I first w l) (hfree : first.findByIdempotency key bucket = none)
    (hm : row ∈ w.table.rows) (hk : row.keys.idempotency = (key, bucket)) :
    ∃ t c, callOf I l t = some c ∧ c.stage = .owning ∧ c.taskId = some row.taskId ∧
      row.createReqDigest = some (c.digest I) := by
  rcases h.rows row hm with ⟨row₀, hm₀, hk₀⟩ | ⟨t, c, hc, hs, hid⟩
  · exact absurd (by rw [hk₀, hk]) (Table.findByIdempotency_eq_none.mp hfree row₀ hm₀)
  · obtain ⟨row', hm', hid', -, hd⟩ := (h.sound t c hc).owns hs
    rw [hid, Option.some.injEq] at hid'
    have he : row' = row := List.inj_on_of_nodup_map w.table.taskIds hm' hm hid'.symm
    exact ⟨t, c, hc, hs, hid, he ▸ hd⟩

/-- A call that was admitted, and had nothing fail, answers from the row of its key. -/
theorem Tidy.answer (h : Tidy I first w l) (hfree : first.findByIdempotency key bucket = none)
    {t : ℕ} {c : Call} {a : CreateAnswer} (hc : callOf I l t = some c)
    (hp : c.pair I = some (key, bucket)) (hr : c.refused = false) (hf : c.failed = false)
    (ha : c.answer = some a) :
    ∃ row ∈ w.table.rows, row.keys.idempotency = (key, bucket) ∧
      ∃ d, row.createReqDigest = some d ∧
        (c.digest I = d → ∃ result, a = .accepted result ∧ result.taskId = row.taskId) ∧
        (c.digest I ≠ d → ∃ detail, a = .refused 409 detail) := by
  have hs := h.sound t c hc
  -- the row it saw is the one its owner inserted, with the owner's digest
  have seen : ∀ row₀, c.stage = .seeing row₀ → ∃ row ∈ w.table.rows,
      row.keys.idempotency = (key, bucket) ∧ row.taskId = row₀.taskId ∧
        ∃ d, row.createReqDigest = some d ∧
          (conflicts row₀ (c.digest I) = true ↔ d ≠ c.digest I) := by
    intro row₀ hrow₀
    obtain ⟨hp₀, row, hm, hk, hd⟩ := hs.sees row₀ hrow₀
    have hpair : row.keys.idempotency = (key, bucket) := by
      rw [hk]
      exact Option.some.inj (hp₀.symm.trans hp)
    obtain ⟨u, c', -, -, -, hd'⟩ := h.owner hfree hm hpair
    exact ⟨row, hm, hpair, congrArg Keys.taskId hk, _, hd',
      conflicts_iff (hd.symm.trans hd') Call.digest_ne_empty Call.digest_ne_empty⟩
  have hans := hs.answered a ha
  cases a with
  | accepted result =>
      rcases hans with ⟨howns, hid⟩ | ⟨row₀, hrow₀, hcf, hid⟩
      · obtain ⟨row, hm, hid', hp', hd⟩ := hs.owns howns
        rw [hp] at hp'
        rw [hid] at hid'
        exact ⟨row, hm, (Option.some.inj hp').symm, _, hd,
          fun _ => ⟨result, rfl, Option.some.inj hid'⟩, fun hne => absurd rfl hne⟩
      · obtain ⟨row, hm, hk, hid', d, hd, hcon⟩ := seen row₀ hrow₀
        have hde : d = c.digest I := by
          by_contra hne
          rw [hcon.mpr hne] at hcf
          cases hcf
        exact ⟨row, hm, hk, d, hd, fun _ => ⟨result, rfl, hid.trans hid'.symm⟩,
          fun hne => absurd hde.symm hne⟩
  | refused status detail =>
      rcases hans with hans | hans | hans | ⟨row₀, hrow₀, hcf, rfl⟩
      · rw [hr] at hans
        cases hans
      · rw [hf] at hans
        cases hans
      · exact absurd hans hs.found
      · obtain ⟨row, hm, hk, -, d, hd, hcon⟩ := seen row₀ hrow₀
        exact ⟨row, hm, hk, d, hd, fun he => absurd he.symm (hcon.mp hcf), fun _ => ⟨detail, rfl⟩⟩
  | internalError =>
      rw [show c.failed = true from hans] at hf
      cases hf

/-- A call that does not own the row of its key did nothing to it. -/
theorem Tidy.harmless (h : Tidy I first w l) (hfree : first.findByIdempotency key bucket = none)
    {t : ℕ} {c : Call} {o : AcceptOp} {r : Except Exn o.Ans} (hc : callOf I l t = some c)
    (hs : c.stage ≠ .owning) (hm : row ∈ w.table.rows)
    (hk : row.keys.idempotency = (key, bucket)) (he : .act t o r ∈ l) : Harmless row o := by
  have hdid := h.did t o r c he hc
  obtain ⟨u, d, hd, hds, hdid', -⟩ := h.owner hfree hm hk
  have hut : u ≠ t := by
    rintro rfl
    rw [hc] at hd
    cases hd
    exact hs hds
  cases o with
  | enqueue id message => exact hs hdid.1
  | putCredential id value ttl => exact hs hdid.1
  | putJson key payload ttl =>
      obtain ⟨id, hid, hkey⟩ := hdid
      intro tenant
      refine key_ne ?_ ?_ hkey
      · rw [((h.sound t c hc).drawn id hid).2, ((h.sound u d hd).drawn _ hdid').2]
      · rintro rfl
        exact hut (h.distinct u t d c _ hd hc hdid' hid)
  | _ => trivial

end Once

/-- **One task for a key and a bucket.**  In every run in which the key is free at first: no more
than one row of it is inserted; a call with that key and bucket that was admitted, and had no
operation fail, answers when it returns, and then there is the one row, and it answers with the task
of that row or, where its body is another, with 409; and a call that does not own the row sends no
message, stores no credential and leaves the body and the response of the row alone. -/
theorem accept_once {I : Intake} {w : IntakeWorld} {key : String} {bucket : ℤ}
    (hfree : w.table.findByIdempotency key bucket = none) {cfg : Config (intake I)}
    (run : Run (intake I).anything ((intake I).initial w) cfg) :
    (cfg.log.filter (inserts (key, bucket))).length ≤ 1 ∧
      (∀ t c, callOf I cfg.log t = some c → c.pair I = some (key, bucket) →
        c.refused = false → c.failed = false →
        (cfg.prog t = .pure () → c.halted = false → c.answer.isSome = true) ∧
          ∀ a, c.answer = some a → (cfg.log.filter (inserts (key, bucket))).length = 1 ∧
            ∃ row ∈ cfg.world.table.rows, row.keys.idempotency = (key, bucket) ∧
              ∃ d, row.createReqDigest = some d ∧
                (c.digest I = d → ∃ result, a = .accepted result ∧ result.taskId = row.taskId) ∧
                (c.digest I ≠ d → ∃ detail, a = .refused 409 detail)) ∧
      ∀ t c row, callOf I cfg.log t = some c → c.pair I = some (key, bucket) →
        c.stage ≠ .owning → row ∈ cfg.world.table.rows → row.keys.idempotency = (key, bucket) →
        ∀ o r, .act t o r ∈ cfg.log → Harmless row o := by
  have h := tidy_of_run run
  have hcount := h.counted (key, bucket) (Table.findByIdempotency_eq_none.mp hfree)
  have hle := Table.length_filter_le cfg.world.table (key, bucket)
  refine ⟨hcount ▸ hle, fun t c hc hp hr hf => ⟨fun hret hh => ?_, fun a ha => ?_⟩,
    fun t c row hc _ hs hm hk o r he => h.harmless hfree hc hs hm hk he⟩
  · have hdone := ((Keeps.initial w).run follows_intake run).done hret
    rw [callOf_eq_some.mp hc] at hdone
    exact hdone.resolve_right (by simp [hh])
  · obtain ⟨row, hm, hk, hrest⟩ := h.answer hfree hc hp hr hf ha
    refine ⟨?_, row, hm, hk, hrest⟩
    have hpos : 0 < (cfg.world.table.rows.filter fun row =>
        row.keys.idempotency = (key, bucket)).length :=
      List.length_pos_of_mem (List.mem_filter.mpr ⟨hm, by simpa using hk⟩)
    omega

/-- Call `t` goes on, answered with the replies, all at the time 0. -/
def callGoesOn (t : ℕ) (replies : List IntakeReply) : List (Move (intake sampleIntake)) :=
  replies.map fun reply => .act t ⟨0, reply⟩

/-- Two calls find their key free before either inserts a row: the insert of the second fails, and
it looks the key up again. -/
def bothFree : List (Move (intake sampleIntake)) :=
  .spawn (.create (sampleRequest "a")) :: .spawn (.create (sampleRequest "a")) ::
    (callGoesOn 0 [.slot ⟨true, none⟩, .count 0, .done, .done] ++
      callGoesOn 1 [.slot ⟨true, none⟩, .count 0, .done, .done] ++
      callGoesOn 0 [.text "aaaaaaaaaaaaaaaaaaaaaaaa", .done, .done, .done, .done, .done, .done,
        .done] ++
      callGoesOn 1 [.text "bbbbbbbbbbbbbbbbbbbbbbbb", .done, .done, .done, .done, .done,
        .json (.obj []), .done])

/-- Whether the insert of call `t` failed on the constraint. -/
def insertFailed (t : ℕ) : Event acceptEffects Exn IntakeWork → Bool
  | .act u (.insert _) (.ok (inserted : Bool)) => decide (u = t) && !inserted
  | _ => false

/-- Whether a call with the key was admitted, had nothing fail, and answered with the task. -/
def answeredTask (id : String) (c : Call) : Bool :=
  decide (c.pair sampleIntake = some ("order-1", 0) ∧ c.refused = false ∧ c.failed = false) &&
    match c.answer with
    | some (.accepted result) => decide (result.taskId = id)
    | _ => false

theorem answeredTask_iff {id : String} {c : Call} :
    answeredTask id c = true ↔ (c.pair sampleIntake = some ("order-1", 0) ∧ c.refused = false ∧
      c.failed = false) ∧ ∃ result, c.answer = some (.accepted result) ∧ result.taskId = id := by
  unfold answeredTask
  rw [Bool.and_eq_true, decide_eq_true_eq]
  refine and_congr_right fun _ => ?_
  split
  · next result hans => simp [hans]
  · next hans =>
      refine iff_of_false Bool.false_ne_true ?_
      rintro ⟨result, hr, -⟩
      exact hans result hr

/-- Two calls with one key, the second of which loses the race of the inserts: one row, and both
have its task. -/
theorem accept_once_sample :
    ∃ cfg, Run (intake sampleIntake).anything ((intake sampleIntake).initial sampleIntakeWorld) cfg ∧
      cfg.log.any (insertFailed 1) = true ∧
        (cfg.log.filter (inserts ("order-1", 0))).length = 1 ∧
          ∃ c d ra rb, callOf sampleIntake cfg.log 0 = some c ∧
            callOf sampleIntake cfg.log 1 = some d ∧ c.answer = some (.accepted ra) ∧
              d.answer = some (.accepted rb) ∧ ra.taskId = rb.taskId := by
  have hexec : (((intake sampleIntake).initial sampleIntakeWorld).exec (fun _ _ _ _ _ => true)
      bothFree).any (fun cfg => cfg.log.any (insertFailed 1) &&
        ((callOf sampleIntake cfg.log 0).any (answeredTask "aaaaaaaaaaaaaaaaaaaaaaaa") &&
          (callOf sampleIntake cfg.log 1).any (answeredTask "aaaaaaaaaaaaaaaaaaaaaaaa"))) = true := by
    decide +kernel
  obtain ⟨cfg, run, hcfg⟩ := Run.of_any_exec (G := (intake sampleIntake).anything)
    (fun _ _ _ _ _ _ => trivial) hexec
  simp only [Bool.and_eq_true, Option.any_eq_true] at hcfg
  obtain ⟨hfailed, ⟨c, hc, hcans⟩, d, hd, hdans⟩ := hcfg
  obtain ⟨⟨hcp, hcr, hcf⟩, ra, ha, hra⟩ := answeredTask_iff.mp hcans
  obtain ⟨-, rb, hb, hrb⟩ := answeredTask_iff.mp hdans
  obtain ⟨-, hcalls, -⟩ := accept_once rfl run
  exact ⟨cfg, run, hfailed, ((hcalls 0 c hc hcp hcr hcf).2 _ ha).1, c, d, ra, rb, hc, hd, ha, hb,
    hra.trans hrb.symm⟩

end AsyncGateway
