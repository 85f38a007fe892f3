import AsyncGateway.System.Acceptance

/-!
# System — windows and keys

Two calls that are answered are answered with one task exactly where key and bucket are the same
(`dedup_window`): the window is the bucket of the grid `⌊t / w⌋`, not the time since the first call.
The key is the caller's own string or one derived from the credential and the body, and nothing
else of the request enters it: requests of two tenants, channels or templates are kept apart
exactly where their keys differ (`idempotency_isolation`).
-/

namespace AsyncGateway

open Interleave

/-! ### The window -/

/-- The row of the task a call was answered with. -/
theorem Tidy.row_of_accepted {I : Intake} {first : Table} {w : IntakeWorld} {l : IntakeLog} {t : ℕ}
    {c : Call} {result : AcceptResult} (h : Tidy I first w l) (hc : callOf I l t = some c)
    (ha : c.answer = some (.accepted result)) :
    ∃ row ∈ w.table.rows, row.taskId = result.taskId ∧ c.pair I = some row.keys.idempotency := by
  have hs := h.sound t c hc
  rcases hs.answered _ ha with ⟨howns, hid⟩ | ⟨row₀, hrow₀, -, hid⟩
  · obtain ⟨row, hm, hid', hp, -⟩ := hs.owns howns
    rw [hid] at hid'
    exact ⟨row, hm, (Option.some.inj hid').symm, hp⟩
  · obtain ⟨hp, row, hm, hk, -⟩ := hs.sees row₀ hrow₀
    exact ⟨row, hm, (congrArg Keys.taskId hk).trans hid.symm, by rw [hk, hp]⟩

/-- Two calls answered with one task have one key and one bucket. -/
theorem Tidy.pair_eq {I : Intake} {first : Table} {w : IntakeWorld} {l : IntakeLog} {t u : ℕ}
    {c d : Call} {ra rb : AcceptResult} (h : Tidy I first w l) (hc : callOf I l t = some c)
    (hd : callOf I l u = some d) (ha : c.answer = some (.accepted ra))
    (hb : d.answer = some (.accepted rb)) (hid : ra.taskId = rb.taskId) : c.pair I = d.pair I := by
  obtain ⟨row, hm, hr, hp⟩ := h.row_of_accepted hc ha
  obtain ⟨row', hm', hr', hp'⟩ := h.row_of_accepted hd hb
  have he : row = row' := List.inj_on_of_nodup_map w.table.taskIds hm hm'
    (hr.trans (hid.trans hr'.symm))
  rw [hp, hp', he]

/-- **The window of an idempotency key.**  Of two calls with one key, one body and one window `w`,
both admitted and answered, at the times `t₁` and `t₂`: where `⌊t₁ / w⌋ = ⌊t₂ / w⌋` they are answered
with one task, or both with 409 where another body took key and bucket; where the buckets differ,
and so whenever `w ≤ t₂ - t₁`, not with one task.  Of each bucket no more than one row is inserted. -/
theorem dedup_window {I : Intake} {w₀ : IntakeWorld} {key : String}
    (hfree : ∀ row ∈ w₀.table.rows, row.idempotencyKey ≠ key) {cfg : Config (intake I)}
    (run : Run (intake I).anything ((intake I).initial w₀) cfg) {t u : ℕ} {c d : Call} {w : ℤ}
    {t₁ t₂ : Time} {a b : CreateAnswer} (hw : 1 ≤ w)
    (hc : callOf I cfg.log t = some c) (hd : callOf I cfg.log u = some d)
    (hkc : (I.idem c.request).key = key) (hkd : (I.idem d.request).key = key)
    (hwc : I.window c.request = w) (hwd : I.window d.request = w)
    (htc : c.time = some t₁) (htd : d.time = some t₂) (hbody : c.digest I = d.digest I)
    (hrc : c.refused = false) (hrd : d.refused = false) (hfc : c.failed = false)
    (hfd : d.failed = false) (ha : c.answer = some a) (hb : d.answer = some b) :
    (⌊t₁ / w⌋ = ⌊t₂ / w⌋ →
      (∃ ra rb, a = .accepted ra ∧ b = .accepted rb ∧ ra.taskId = rb.taskId) ∨
        ∃ x y, a = .refused 409 x ∧ b = .refused 409 y ∧
          ∃ row ∈ cfg.world.table.rows, row.keys.idempotency = (key, ⌊t₁ / w⌋) ∧
            row.createReqDigest ≠ some (c.digest I)) ∧
      (⌊t₁ / w⌋ ≠ ⌊t₂ / w⌋ → ∀ ra rb, a = .accepted ra → b = .accepted rb →
        ra.taskId ≠ rb.taskId) ∧
      ((w : ℚ) ≤ t₂ - t₁ → ⌊t₁ / w⌋ ≠ ⌊t₂ / w⌋) ∧
      ∀ bucket, (cfg.log.filter (inserts (key, bucket))).length ≤ 1 := by
  have h := tidy_of_run run
  have hbucket : ∀ t : Time, windowBucket t w = ⌊t / w⌋ := fun t => by
    simp [windowBucket, max_eq_right hw]
  have hnone : ∀ bucket, w₀.table.findByIdempotency key bucket = none := fun bucket =>
    Table.findByIdempotency_eq_none.mpr fun row hm he => hfree row hm (congrArg Prod.fst he)
  have hpc : c.pair I = some (key, ⌊t₁ / w⌋) := by simp [Call.pair, htc, hkc, hwc, hbucket]
  have hpd : d.pair I = some (key, ⌊t₂ / w⌋) := by simp [Call.pair, htd, hkd, hwd, hbucket]
  refine ⟨fun he => ?_, fun hne ra rb hra hrb hid => ?_, fun hle => ?_, fun bucket => ?_⟩
  · rw [← he] at hpd
    obtain ⟨row, hm, hk, x, hx, hsame, hother⟩ := h.answer (hnone _) hc hpc hrc hfc ha
    obtain ⟨row', hm', hk', y, hy, hsame', hother'⟩ := h.answer (hnone _) hd hpd hrd hfd hb
    -- the constraint has room for one row of key and bucket
    have hrow : row = row' :=
      List.inj_on_of_nodup_map cfg.world.table.idempotency hm hm' (hk.trans hk'.symm)
    subst hrow
    obtain rfl : x = y := Option.some.inj (hx.symm.trans hy)
    by_cases hdig : c.digest I = x
    · obtain ⟨ra, hra, hida⟩ := hsame hdig
      obtain ⟨rb, hrb, hidb⟩ := hsame' (hbody ▸ hdig)
      exact .inl ⟨ra, rb, hra, hrb, hida.trans hidb.symm⟩
    · obtain ⟨da, hda⟩ := hother hdig
      obtain ⟨db, hdb⟩ := hother' (hbody ▸ hdig)
      exact .inr ⟨da, db, hda, hdb, row, hm, hk, by simpa [hx] using Ne.symm hdig⟩
  · have hp := h.pair_eq hc hd (hra ▸ ha) (hrb ▸ hb) hid
    rw [hpc, hpd] at hp
    exact hne (congrArg Prod.snd (Option.some.inj hp))
  · have hne := windowBucket_ne_of_le hw hle
    rwa [hbucket, hbucket] at hne
  · have hcount := h.counted (key, bucket) (Table.findByIdempotency_eq_none.mp (hnone bucket))
    rw [hcount]
    exact Table.length_filter_le _ _

theorem window_sampleRequest (tenant : String) :
    sampleIntake.window (sampleRequest tenant) = 86400 := rfl

/-- One second apart, and in two buckets: the same request makes two tasks. -/
theorem dedup_window_straddled :
    sampleIntake.window (sampleRequest "a") = 86400 ∧
      ∃ cfg, Run (intake sampleIntake).anything ((intake sampleIntake).initial sampleIntakeWorld) cfg ∧
        ∃ c d, callOf sampleIntake cfg.log 0 = some c ∧ callOf sampleIntake cfg.log 1 = some d ∧
          c.request = sampleRequest "a" ∧ d.request = sampleRequest "a" ∧
          c.time = some 86399 ∧ d.time = some 86400 ∧
          ∃ ra rb, c.answer = some (.accepted ra) ∧ d.answer = some (.accepted rb) ∧
            ra.taskId ≠ rb.taskId ∧ cfg.world.table.rows.length = 2 := by
  refine ⟨rfl, ?_⟩
  have hfirst : windowBucket 86399 (sampleIntake.window (sampleRequest "a")) = 0 := by
    rw [window_sampleRequest]
    norm_num [windowBucket]
  have hsecond : windowBucket 86400 (sampleIntake.window (sampleRequest "a")) = 1 := by
    rw [window_sampleRequest]
    norm_num [windowBucket]
  refine two_calls (sampleRequest "a") (sampleRequest "a") (R := fun w c d =>
    c.request = sampleRequest "a" ∧ d.request = sampleRequest "a" ∧
    c.time = some 86399 ∧ d.time = some 86400 ∧
    ∃ ra rb, c.answer = some (.accepted ra) ∧ d.answer = some (.accepted rb) ∧
      ra.taskId ≠ rb.taskId ∧ w.table.rows.length = 2) ?_
  have hclock : sampleIntakeWorld.clock ≤ 86399 := by norm_num [sampleIntakeWorld]
  have hempty : ∀ id, ∀ row ∈ sampleIntakeWorld.table.rows, row.taskId ≠ id := by
    simp [sampleIntakeWorld]
  refine may_win (by decide) hclock rfl (by decide : "aaaaaaaaaaaaaaaaaaaaaaaa".length = 24)
    (by simp [sampleIntakeWorld]) (hempty _) fun token tbl ra hra hrows => ?_
  have hrow : ∀ row ∈ tbl.rows,
      row.taskId = "aaaaaaaaaaaaaaaaaaaaaaaa" ∧ row.keys.idempotency.2 = 0 := by
    intro row hm
    rw [hrows] at hm
    obtain rfl := List.mem_singleton.mp hm
    exact ⟨rfl, hfirst⟩
  refine may_win (by decide) (by norm_num : (86399 : ℚ) ≤ 86400) ?_
    (by decide : "bbbbbbbbbbbbbbbbbbbbbbbb".length = 24)
    (by simp [sampleIntakeWorld]) (fun row hm => ?_) fun token' tbl' rb hrb hrows' => ?_
  · refine Table.findByIdempotency_eq_none.mpr fun row hm he => ?_
    have hbucket := congrArg Prod.snd he
    rw [(hrow row hm).2, hsecond] at hbucket
    cases hbucket
  · rw [(hrow row hm).1]
    decide
  · refine ⟨_, _, rfl, rfl, rfl, rfl, rfl, rfl, ra, rb, rfl, rfl, ?_, ?_⟩
    · rw [hra, hrb]
      decide
    · rw [hrows', hrows]
      rfl

/-- Two calls with one key in one bucket: one task. -/
theorem dedup_window_sample :
    ∃ cfg, Run (intake sampleIntake).anything ((intake sampleIntake).initial sampleIntakeWorld) cfg ∧
      ∃ c d, callOf sampleIntake cfg.log 0 = some c ∧ callOf sampleIntake cfg.log 1 = some d ∧
        c.time = some 0 ∧ d.time = some 86399 ∧
        ∃ ra rb, c.answer = some (.accepted ra) ∧ d.answer = some (.accepted rb) ∧
          ra.taskId = rb.taskId := by
  have hbucket : windowBucket 0 86400 = 0 ∧ windowBucket 86399 86400 = 0 := by
    norm_num [windowBucket]
  obtain ⟨cfg, run, c, d, hc, hd, hcr, hdr, htc, htd, hrc, hrd, hfc, hfd, ⟨ra, ha⟩, b, hb⟩ :=
    two_calls (I := sampleIntake) (w := sampleIntakeWorld) (sampleRequest "a") (sampleRequest "a")
      (R := fun _ c d => c.request = sampleRequest "a" ∧ d.request = sampleRequest "a" ∧
        c.time = some 0 ∧ d.time = some 86399 ∧ c.refused = false ∧ d.refused = false ∧
        c.failed = false ∧ d.failed = false ∧ (∃ ra, c.answer = some (.accepted ra)) ∧
        ∃ b, d.answer = some b) (by
      refine may_win (by decide) (le_refl 0) rfl
        (by decide : "aaaaaaaaaaaaaaaaaaaaaaaa".length = 24) (by simp [sampleIntakeWorld])
        (by simp [sampleIntakeWorld]) fun token tbl ra hra hrows => ?_
      refine may_lose (by decide) (by norm_num : (0 : ℚ) ≤ 86399)
        (Table.findByIdempotency_eq_some.mpr ⟨hrows ▸ List.mem_cons_self, ?_⟩)
        (fun _ detail => ⟨_, _, rfl, rfl, rfl, rfl, rfl, rfl, rfl, rfl, rfl, rfl, ⟨ra, rfl⟩, _, rfl⟩)
        fun _ result _ => ⟨_, _, rfl, rfl, rfl, rfl, rfl, rfl, rfl, rfl, rfl, rfl, ⟨ra, rfl⟩, _, rfl⟩
      exact congrArg _ (hbucket.1.trans hbucket.2.symm))
  refine ⟨cfg, run, c, d, hc, hd, htc, htd, ?_⟩
  have hkey : ∀ e : Call, e.request = sampleRequest "a" →
      (sampleIntake.idem e.request).key = (sampleIntake.idem (sampleRequest "a")).key ∧
        sampleIntake.window e.request = 86400 := by
    intro e he
    rw [he]
    exact ⟨rfl, rfl⟩
  obtain ⟨same, -⟩ := dedup_window (by simp [sampleIntakeWorld]) run (by norm_num) hc hd
    (hkey c hcr).1 (hkey d hdr).1 (hkey c hcr).2 (hkey d hdr).2 htc htd
    (by simp [Call.digest, hcr, hdr]) hrc hrd hfc hfd ha hb
  rcases same (by norm_num) with ⟨ra', rb, hra, rfl, hid⟩ | ⟨x, y, hx, -⟩
  · exact ⟨ra', rb, by rw [ha, hra], hb, hid⟩
  · cases hx

/-! ### Whose key it is -/

/-- The end of a derived key. -/
def derivedEnd (H : Hashing) (r : CreateRequest) : String :=
  if r.template.normalizeFields = [] ∧ r.body = [] then "empty"
  else String.ofList ((bodyDigest H r.body r.template).toList.take 32)

/-- A key of the caller's own is the key of the other request: the same string, or the one that is
derived for the other. -/
def Collide (H : Hashing) (r₁ r₂ : CreateRequest) : Prop :=
  match nonEmpty r₁.explicitKey, nonEmpty r₂.explicitKey with
  | some k₁, some k₂ => Text.strip k₁.toList = Text.strip k₂.toList
  | some k, none => String.ofList (Text.strip k.toList) =
      "auto:" ++ r₂.auth.keyHash ++ "|" ++ derivedEnd H r₂
  | none, some k => String.ofList (Text.strip k.toList) =
      "auto:" ++ r₁.auth.keyHash ++ "|" ++ derivedEnd H r₁
  | none, none => r₁.auth.keyHash ++ "|" ++ derivedEnd H r₁ =
      r₂.auth.keyHash ++ "|" ++ derivedEnd H r₂

/-- The call was refused for the row the other inserted. -/
def Call.RefusedFor (c d : Call) : Prop :=
  ∃ row detail, c.stage = .seeing row ∧ c.answer = some (.refused 409 detail) ∧
    d.stage = .owning ∧ d.taskId = some row.taskId

/-- The two requests never get one task, and neither is refused for the other. -/
def Isolated (I : Intake) (r₁ r₂ : CreateRequest) : Prop :=
  ∀ w cfg, Run (intake I).anything ((intake I).initial w) cfg →
    ∀ t u c d, callOf I cfg.log t = some c → callOf I cfg.log u = some d →
      c.request = r₁ → d.request = r₂ →
        (∀ ra rb, c.answer = some (.accepted ra) → d.answer = some (.accepted rb) →
          ra.taskId ≠ rb.taskId) ∧
        ¬ c.RefusedFor d ∧ ¬ d.RefusedFor c

section Isolation

variable {I : Intake} {r₁ r₂ : CreateRequest}

theorem idem_key (r : CreateRequest) :
    (I.idem r).key = match nonEmpty r.explicitKey with
      | some k => String.ofList (Text.strip k.toList)
      | none => "auto:" ++ r.auth.keyHash ++ "|" ++ derivedEnd I.hashing r := by
  unfold Intake.idem resolveKey deriveKey derivedEnd
  cases nonEmpty r.explicitKey with
  | some k => rfl
  | none =>
      simp only
      split
      · simp [derivedPrefix, String.append_assoc]
      · rfl

theorem collide_iff : Collide I.hashing r₁ r₂ ↔ (I.idem r₁).key = (I.idem r₂).key := by
  rw [idem_key, idem_key]
  unfold Collide
  cases nonEmpty r₁.explicitKey <;> cases nonEmpty r₂.explicitKey
  · simp only [String.append_assoc]
    exact (String.append_right_inj "auto:").symm
  · exact eq_comm
  · exact Iff.rfl
  · exact String.ofList_inj.symm

/-- No row is of two keys. -/
theorem isolated_of_ne (hne : (I.idem r₁).key ≠ (I.idem r₂).key) : Isolated I r₁ r₂ := by
  intro w cfg run t u c d hc hd hcr hdr
  have h := tidy_of_run run
  have hpair : c.pair I ≠ d.pair I ∨ c.pair I = none := by
    by_contra hn
    push Not at hn
    obtain ⟨p, hp⟩ := Option.ne_none_iff_exists'.mp hn.2
    have hp' := hn.1 ▸ hp
    obtain ⟨t₁, -, h₁⟩ := Option.map_eq_some_iff.mp hp
    obtain ⟨t₂, -, h₂⟩ := Option.map_eq_some_iff.mp hp'
    rw [← h₂, hcr, hdr] at h₁
    exact hne (congrArg Prod.fst h₁)
  have seen : ∀ {v v' : ℕ} {e e' : Call}, callOf I cfg.log v = some e →
      callOf I cfg.log v' = some e' → e.RefusedFor e' → e.pair I = e'.pair I ∧ e.pair I ≠ none := by
    rintro v v' e e' he he' ⟨row, detail, hs, -, ho, hid⟩
    obtain ⟨hp, row₁, hm₁, hk, -⟩ := (h.sound v e he).sees row hs
    obtain ⟨row₂, hm₂, hid₂, hp₂, -⟩ := (h.sound v' e' he').owns ho
    have hrow : row₁ = row₂ := List.inj_on_of_nodup_map cfg.world.table.taskIds hm₁ hm₂
      ((congrArg Keys.taskId hk).trans (Option.some.inj (hid.symm.trans hid₂)))
    exact ⟨by rw [hp, hp₂, ← hrow, hk], by simp [hp]⟩
  refine ⟨fun ra rb ha hb hid => ?_, fun hr => ?_, fun hr => ?_⟩
  · obtain ⟨row, -, -, hp⟩ := h.row_of_accepted hc ha
    rcases hpair with hp' | hp'
    · exact hp' (h.pair_eq hc hd ha hb hid)
    · rw [hp'] at hp
      cases hp
  · obtain ⟨he, hn⟩ := seen hc hd hr
    exact hpair.elim (fun h => h he) hn
  · obtain ⟨he, hn⟩ := seen hd hc hr
    exact hpair.elim (fun h => h he.symm) fun hp => hn (he.trans hp)

/-- Where none is admitted, none is answered. -/
theorem isolated_of_maxDepth (hdepth : I.maxDepth = 0) : Isolated I r₁ r₂ := by
  intro w cfg run t u c d hc hd _ _
  have h := tidy_of_run run
  have untimed : ∀ {v : ℕ} {e : Call}, callOf I cfg.log v = some e → e.pair I = none := by
    intro v e he
    by_contra hn
    refine absurd ((h.sound v e he).admitted fun ht => hn ?_) (by omega)
    simp [Call.pair, ht]
  refine ⟨fun ra rb ha _ _ => ?_, ?_, ?_⟩
  · obtain ⟨row, -, -, hp⟩ := h.row_of_accepted hc ha
    rw [untimed hc] at hp
    cases hp
  · rintro ⟨row, detail, hs, -⟩
    have hp := ((h.sound t c hc).sees row hs).1
    rw [untimed hc] at hp
    cases hp
  · rintro ⟨row, detail, hs, -⟩
    have hp := ((h.sound u d hd).sees row hs).1
    rw [untimed hd] at hp
    cases hp

/-- Where the keys are the same, the second request meets the row of the first. -/
theorem not_isolated_of_eq (hdepth : 0 < I.maxDepth) (he : (I.idem r₁).key = (I.idem r₂).key) :
    ¬ Isolated I r₁ r₂ := by
  have hzero : ∀ w, windowBucket 0 w = 0 := fun w => by simp [windowBucket]
  obtain ⟨cfg, run, c, d, hc, hd, hcr, hdr, hmet⟩ :=
    two_calls (I := I) (w := sampleIntakeWorld) r₁ r₂
      (R := fun _ c d => c.request = r₁ ∧ d.request = r₂ ∧
        ((∃ ra rb, c.answer = some (.accepted ra) ∧ d.answer = some (.accepted rb) ∧
          ra.taskId = rb.taskId) ∨ d.RefusedFor c)) (by
      refine may_win hdepth (le_refl 0) rfl
        (by decide : "aaaaaaaaaaaaaaaaaaaaaaaa".length = 24) (by simp [sampleIntakeWorld])
        (by simp [sampleIntakeWorld]) fun token tbl ra hra hrows => ?_
      refine may_lose hdepth (le_refl 0)
        (Table.findByIdempotency_eq_some.mpr ⟨hrows ▸ List.mem_cons_self, ?_⟩)
        (fun _ detail => ⟨_, _, rfl, rfl, rfl, rfl, .inr ⟨_, detail, rfl, rfl, rfl, rfl⟩⟩)
        fun _ rb hrb => ⟨_, _, rfl, rfl, rfl, rfl, .inl ⟨ra, rb, rfl, rfl, hra.trans hrb.symm⟩⟩
      exact Prod.ext he ((hzero _).trans (hzero _).symm))
  intro hiso
  obtain ⟨htasks, -, hrefused⟩ := hiso _ cfg run 0 1 c d hc hd hcr hdr
  rcases hmet with ⟨ra, rb, ha, hb, hid⟩ | hr
  · exact htasks ra rb ha hb hid
  · exact hrefused hr

end Isolation

/-- **Idempotency isolation.**  Two requests are kept apart in every run exactly where neither has
the key of the other, or none is ever admitted. -/
theorem idempotency_isolation (I : Intake) (r₁ r₂ : CreateRequest) :
    Isolated I r₁ r₂ ↔ ¬ Collide I.hashing r₁ r₂ ∨ I.maxDepth = 0 := by
  rw [collide_iff]
  constructor
  · intro h
    by_contra hn
    push Not at hn
    exact not_isolated_of_eq (Nat.pos_of_ne_zero hn.2) hn.1 h
  · rintro (hne | hd)
    · exact isolated_of_ne hne
    · exact isolated_of_maxDepth hd

/-- Two tenants with one key of their own are not kept apart. -/
theorem idempotency_shared :
    (sampleRequest "a").auth.tenant ≠ (sampleRequest "b").auth.tenant ∧
      ¬ Isolated sampleIntake (sampleRequest "a") (sampleRequest "b") :=
  ⟨by decide, not_isolated_of_eq (by decide) rfl⟩

end AsyncGateway
