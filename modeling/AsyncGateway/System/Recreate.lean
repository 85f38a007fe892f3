import AsyncGateway.System.Ledger

/-!
# System — what opens a task again after doubt

Once a task was in doubt, its intent is claimed again only after a confirmation query was denied
(`claim_after_denial`); and a template that does not ask by the client key never opens it again.
-/

namespace AsyncGateway

open TaskStatus
open Interleave

variable {C : Container} {t : ResolvedTemplate}

/-- The task enters `submit_unknown`. -/
def isDoubt (e : Happening) : Bool :=
  match hit e with
  | some (.advance .submitUnknown _ _) => true
  | some (.enterUnknown _ _ _) => true
  | _ => false

/-- A confirmation query is answered with 404 or 400. -/
def isDenial : Happening → Bool
  | .act _ (.recv .confirm) (.ok (.ok response)) =>
      decide (response.statusCode = 404 ∨ response.statusCode = 400)
  | _ => false

/-- The task was in doubt. -/
def doubted (l : Log) : Prop := ∃ e ∈ l, isDoubt e = true

/-- A confirmation query was denied after the task was in doubt. -/
def denied : Log → Prop
  | [] => False
  | e :: l => isDenial e = true ∧ doubted l ∨ denied l

instance : DecidablePred doubted := fun l => inferInstanceAs (Decidable (∃ e ∈ l, isDoubt e = true))

instance decidableDenied : DecidablePred denied
  | [] => isFalse id
  | e :: l =>
      have := decidableDenied l
      inferInstanceAs (Decidable (isDenial e = true ∧ doubted l ∨ denied l))

theorem denied_iff {l : Log} :
    denied l ↔ ∃ l₁ e l₂, l = l₁ ++ e :: l₂ ∧ isDenial e = true ∧ doubted l₂ := by
  induction l with
  | nil => simp [denied]
  | cons x l ih =>
      constructor
      · rintro (⟨hx, hd⟩ | h)
        · exact ⟨[], x, l, rfl, hx, hd⟩
        · obtain ⟨l₁, e, l₂, rfl, he⟩ := ih.mp h
          exact ⟨x :: l₁, e, l₂, rfl, he⟩
      · rintro ⟨- | ⟨y, l₁⟩, e, l₂, heq, he⟩
        · obtain ⟨rfl, rfl⟩ := List.cons.inj heq
          exact .inl he
        · obtain ⟨rfl, rfl⟩ := List.cons.inj heq
          exact .inr (ih.mpr ⟨l₁, e, l₂, rfl, he⟩)

/-- The answer to a confirmation query has the id of a task, and the id is empty. -/
def BlankId (C : Container) (t : ResolvedTemplate) (bearer : Option String)
    (response : HttpResponse) : Prop :=
  200 ≤ response.statusCode ∧ response.statusCode < 300 ∧
    ∃ doc v, response.json.map (C.scrubPayload bearer.toList) = some doc ∧
      tryExtract doc t.idLocation = .ok (some v) ∧ C.pyStr v = ""

/-- A task in doubt is opened to a new submission. -/
def isReopen (e : Happening) : Bool :=
  match hit e with
  | some (.advance .accepted _ _) => true
  | _ => false

/-- No task is opened again on an answer that has the id of a task, though an empty one. -/
def opensOnDenial (C : Container) (t : ResolvedTemplate) : (gateway C t).Condition :=
  fun _ l u o r => isReopen (.act u o r) = true → ∀ row bearer response t',
    (phase C t l u).stage = .told row bearer (.ok response) → templateOf C row = some t' →
      ¬ BlankId C t' bearer response

/-- An empty id is one the answer has. -/
theorem blankId_of_verdict {t' : ResolvedTemplate} {bearer : Option String}
    {a : Except HttpxError HttpResponse} {c : Confirmation} (h : verdict C t' bearer a = .ok c)
    (hid : c.upstreamId = some "") : ∃ response, a = .ok response ∧ BlankId C t' bearer response := by
  obtain ⟨hok, fields, v, hdoc, hv, hs⟩ := confirmationOf_named h hid
  cases a with
  | error exc => simp [UpstreamClient.ofHttpxError] at hdoc
  | ok response =>
      refine ⟨response, rfl, ?_⟩
      simp only [UpstreamClient.ofResponse, UpstreamResponse.ok] at hok hdoc
      split at hok
      · rename_i hcode
        obtain ⟨h₁, h₂⟩ := of_decide_eq_true hcode
        refine ⟨h₁, h₂, .obj fields, v, ?_, hv, hs⟩
        split at hdoc <;> exact hdoc
      · simp [UpstreamCallResult.ok] at hok

/-- A conclusion without an id that can be used has none at all, unless the answer has an empty
one. -/
theorem Concluded.upstreamId {l : Local} {c : Confirmation} (h : Concluded C l c)
    (hid : nonEmpty c.upstreamId = none)
    (hn : ∀ row bearer response t', l.stage = .told row bearer (.ok response) →
      templateOf C row = some t' → ¬ BlankId C t' bearer response) : c.upstreamId = none := by
  obtain ⟨row, bearer, a, t', hs, ht, hv, -⟩ := h
  by_contra hne
  obtain ⟨id, hid'⟩ := Option.ne_none_iff_exists'.mp hne
  have hblank : id = "" := by
    by_contra hn
    rw [hid', nonEmpty_eq_some.mpr ⟨rfl, hn⟩] at hid
    cases hid
  obtain ⟨response, rfl, hb⟩ := blankId_of_verdict hv (hid'.trans (congrArg some hblank))
  exact hn row bearer response t' hs ht hb

/-- The conclusion that there is no task comes of a denial. -/
theorem verdict_denial {t' : ResolvedTemplate} {bearer : Option String}
    {a : Except HttpxError HttpResponse} {c : Confirmation} (h : verdict C t' bearer a = .ok c)
    (hc : c.confirmed = true) (hid : c.upstreamId = none) (u : ℕ) :
    isDenial (.act u (.recv .confirm) (.ok a)) = true := by
  cases a with
  | error exc =>
      obtain ⟨r, hr, -⟩ := confirmationOf_denied h hc hid
      simp [UpstreamClient.ofHttpxError] at hr
  | ok response =>
      obtain ⟨r, hr, hcode⟩ := confirmationOf_denied h hc hid
      have hcode' : response.statusCode = r.statusCode := by
        unfold UpstreamClient.ofResponse at hr
        dsimp only at hr
        split at hr <;> cases hr <;> rfl
      simpa [isDenial, hcode'] using hcode

/-! ### The doubt, in every run -/

theorem doubted.cons {l : Log} (h : doubted l) (e : Happening) : doubted (e :: l) :=
  h.imp fun _ he => ⟨List.mem_cons_of_mem _ he.1, he.2⟩

theorem doubted_cons {l : Log} {e : Happening} (he : isDoubt e = false) :
    doubted (e :: l) ↔ doubted l := by
  simp [doubted, he]

/-- What is known of the doubt, however the run went. -/
structure Doubt (C : Container) (t : ResolvedTemplate) (w : World) (l : Log) : Prop where
  unknown : w.row.status = submitUnknown → doubted l
  seen : ∀ u, ∀ row ∈ (phase C t l u).seen, row.status = submitUnknown → doubted l
  asking : ∀ u, (phase C t l u).stage = .asking → doubted l

/-- A write leaves a task in doubt that was so before, or puts it there. -/
theorem unknown_of_change {row row' : AsyncTask} {op : DaoOp} {e : Happening}
    (hh : hit e = some op) (h : Change row row' op) (hs : row'.status = submitUnknown) :
    row.status = submitUnknown ∨ isDoubt e = true := by
  cases h with
  | moved edge src dst closed submission reported =>
      obtain rfl : _ = submitUnknown := dst.symm.trans hs
      exact .inr (by simp [isDoubt, hh])
  | doubted src dst submission reported => exact .inr (by simp [isDoubt, hh])
  | released src dst submission reported => exact .inl (dst ▸ hs)
  | flagged src dst submission reported => exact .inl (dst ▸ hs)
  | recorded src dst submission reported => exact .inl (dst ▸ hs)
  | kept still dst submission reported => exact .inl (dst ▸ hs)
  | claimed src unclaimed dst submission reported => simp [dst] at hs
  | submitted src held dst submission reported => simp [dst] at hs
  | reopened src dst submission reported => simp [dst] at hs
  | relocated src given dst submission reported => simp [dst] at hs

theorem Doubt.act {w w' : World} {l : Log} {u : ℕ} {o : Op} {γ : Choice} {r : Except Exn o.Ans}
    (h : Doubt C t w l) (ha : Allowed C t (phase C t l u) o)
    (hw : respond w o γ = some (r, w')) : Doubt C t w' (.act u o r :: l) := by
  refine ⟨fun hs => ?_, ?_, ?_⟩
  · obtain ⟨-, hrow⟩ | ⟨op, hh, -, hchange, -⟩ := move_cases (u := u) ha hw
    · exact (h.unknown (hrow ▸ hs)).cons _
    · obtain hs | he := unknown_of_change hh hchange hs
      · exact (h.unknown hs).cons _
      · exact ⟨_, List.mem_cons_self, he⟩
  · refine everyone_act (p := fun _ l' => ∀ row ∈ l'.seen, row.status = submitUnknown → _) ?_ ?_
    · intro row hrow hs
      obtain hrow | rfl := seen_next hw hrow
      · exact (h.seen u row hrow hs).cons _
      · exact (h.unknown hs).cons _
    · exact fun v row hrow hs => (h.seen v row hrow hs).cons _
  · refine everyone_act (p := fun _ l' => l'.stage = .asking → _) ?_ ?_
    · intro hs
      obtain hs | ⟨-, row, t', hrow, hunknown, -⟩ := asking_next ha hs
      · exact (h.asking u hs).cons _
      · exact (h.seen u row (List.mem_of_mem_head? hrow) hunknown).cons _
    · exact fun v hs => (h.asking v hs).cons _

theorem doubt_inserted {w : World} (hw : Inserted w.row) : Doubt C t w [] := by
  refine ⟨fun hs => ?_, fun u row hrow => ?_, fun u hs => ?_⟩
  · rw [hw.status] at hs
    cases hs
  · cases hrow
  · cases hs

theorem Doubt.spawn {w : World} {l : Log} (h : Doubt C t w l) (u : ℕ) (κ : Work) :
    Doubt C t w (.spawn u κ :: l) := by
  refine ⟨fun hs => (h.unknown hs).cons _, ?_, ?_⟩
  · exact everyone_spawn (p := fun _ l' => ∀ row ∈ l'.seen, row.status = submitUnknown → _)
      (by simp) fun v row hrow hs => (h.seen v row hrow hs).cons _
  · exact everyone_spawn (p := fun _ l' => l'.stage = .asking → _) (by simp)
      fun v hs => (h.asking v hs).cons _

theorem Doubt.halt {w : World} {l : Log} (h : Doubt C t w l) (u : ℕ) :
    Doubt C t w (.halt u :: l) := by
  refine ⟨fun hs => (h.unknown hs).cons _, ?_, ?_⟩
  · exact everyone_halt (p := fun _ l' => ∀ row ∈ l'.seen, row.status = submitUnknown → _)
      (fun row hrow hs => (h.seen u row hrow hs).cons _)
      fun v row hrow hs => (h.seen v row hrow hs).cons _
  · exact everyone_halt (p := fun _ l' => l'.stage = .asking → _) (by simp)
      fun v hs => (h.asking v hs).cons _

/-! ### Nothing opens the task but a denial -/

/-- Where a task that was in doubt may be claimed, the doubt was resolved: `D` says that it was. -/
structure Resolved (C : Container) (t : ResolvedTemplate) (D : Log → Prop) (w : World) (l : Log) :
    Prop where
  opened : doubted l → w.row.status = accepted → D l
  told : ∀ u c, Concluded C (phase C t l u) c → c.upstreamId = none → D l
  claims : ∀ l₁ e l₂, l = l₁ ++ e :: l₂ → isClaim e = true → doubted l₂ → D l₂

/-- What is no claim and no doubt, and opens nothing, leaves the doubt resolved. -/
theorem Resolved.cons {D : Log → Prop} {w w' : World} {l : Log} {e : Happening}
    (h : Resolved C t D w l)
    (opened : doubted (e :: l) → w'.row.status = accepted → D (e :: l))
    (told : ∀ u c, Concluded C (phase C t (e :: l) u) c → c.upstreamId = none → D (e :: l))
    (hc : isClaim e = true → doubted l → D l) : Resolved C t D w' (e :: l) := by
  refine ⟨opened, told, ?_⟩
  rintro (- | ⟨x, l₁⟩) e' l₂ heq he'
  · obtain ⟨rfl, rfl⟩ := List.cons.inj heq
    exact hc he'
  · obtain ⟨-, heq⟩ := List.cons.inj heq
    exact h.claims l₁ e' l₂ heq he'

theorem Resolved.act {D : Log → Prop} {w w' : World} {l : Log} {u : ℕ} {o : Op} {γ : Choice}
    {r : Except Exn o.Ans} (h : Resolved C t D w l) (mono : D l → D (.act u o r :: l))
    (ha : Allowed C t (phase C t l u) o) (hw : respond w o γ = some (r, w'))
    (hear : ∀ c, Concluded C ((phase C t l u).next o r) c → c.upstreamId = none →
      D (.act u o r :: l))
    (hg : ∀ c, isReopen (.act u o r) = true → Concluded C (phase C t l u) c →
      nonEmpty c.upstreamId = none → c.upstreamId = none) : Resolved C t D w' (.act u o r :: l) := by
  have told : ∀ v c, Concluded C (phase C t (.act u o r :: l) v) c →
      c.upstreamId = none → D (.act u o r :: l) :=
    everyone_act (p := fun _ l' => ∀ c, Concluded C l' c → c.upstreamId = none → _) hear
      fun v c hc hid => mono (h.told v c hc hid)
  have kept : isDoubt (.act u o r) = false → (w'.row.status = accepted → w.row.status = accepted) →
      doubted (.act u o r :: l) → w'.row.status = accepted → D (.act u o r :: l) :=
    fun he hs hd ha => mono (h.opened ((doubted_cons he).mp hd) (hs ha))
  obtain ⟨hh, hrow⟩ | ⟨op, hh, hop, hchange, -⟩ := move_cases (u := u) ha hw
  · exact h.cons (kept (by simp [isDoubt, hh]) (by rw [hrow]; exact id)) told
      (by simp [isClaim, hh])
  · cases hchange with
    | claimed src unclaimed dst submission reported =>
        exact h.cons (kept (by simp [isDoubt, hh]) fun _ => src) told
          fun _ hd => h.opened hd src
    | reopened src dst submission reported =>
        -- only this opens it, and its handler was told so
        obtain ⟨-, -, c, hc, hid⟩ := hop
        have hid' := hg c (by simp [isReopen, hh]) hc hid
        exact h.cons (fun _ _ => mono (h.told u c hc hid')) told (by simp [isClaim, hh])
    | moved edge src dst closed submission reported =>
        exact h.cons (fun _ hs => absurd (dst ▸ hs) closed) told (by simp [isClaim, hh])
    | submitted src held dst submission reported =>
        exact h.cons (by simp [dst]) told (by simp [isClaim, hh])
    | doubted src dst submission reported =>
        exact h.cons (by simp [dst]) told (by simp [isClaim, hh])
    | relocated src given dst submission reported =>
        exact h.cons (by simp [dst]) told (by simp [isClaim, hh])
    | released src dst submission reported =>
        exact h.cons (kept (by simp [isDoubt, hh]) fun hs => dst ▸ hs) told
          (by simp [isClaim, hh])
    | flagged src dst submission reported =>
        exact h.cons (kept (by simp [isDoubt, hh]) fun hs => dst ▸ hs) told
          (by simp [isClaim, hh])
    | recorded src dst submission reported =>
        exact h.cons (kept (by simp [isDoubt, hh]) fun hs => dst ▸ hs) told
          (by simp [isClaim, hh])
    | kept still dst submission reported =>
        refine h.cons (kept ?_ fun hs => dst ▸ hs) told (by simp [isClaim_of_still hh still])
        cases op <;> simp_all [isDoubt, DaoOp.still]

theorem resolved_inserted {D : Log → Prop} {w : World} : Resolved C t D w [] := by
  refine ⟨fun hd => ?_, fun u c hc => ?_, ?_⟩
  · obtain ⟨e, he, -⟩ := hd
    cases he
  · obtain ⟨row, bearer, r, t', hs, -⟩ := hc
    cases hs
  · rintro (- | ⟨x, l₁⟩) e l₂ heq - <;> cases heq

theorem Resolved.spawn {D : Log → Prop} {w : World} {l : Log} (h : Resolved C t D w l) (u : ℕ)
    (κ : Work) (mono : D l → D (.spawn u κ :: l)) : Resolved C t D w (.spawn u κ :: l) := by
  refine h.cons (fun hd hs => mono (h.opened ((doubted_cons rfl).mp hd) hs)) ?_
    (by simp [isClaim, hit])
  refine everyone_spawn
    (p := fun _ l' => ∀ c, Concluded C l' c → c.upstreamId = none → _) ?_ ?_
  · rintro c ⟨row, bearer, r, t', hs, -⟩
    cases hs
  · exact fun v c hc hid => mono (h.told v c hc hid)

theorem Resolved.halt {D : Log → Prop} {w : World} {l : Log} (h : Resolved C t D w l) (u : ℕ)
    (mono : D l → D (.halt u :: l)) : Resolved C t D w (.halt u :: l) := by
  refine h.cons (fun hd hs => mono (h.opened ((doubted_cons rfl).mp hd) hs)) ?_
    (by simp [isClaim, hit])
  refine everyone_halt
    (p := fun _ l' => ∀ c, Concluded C l' c → c.upstreamId = none → _) ?_ ?_
  · rintro c ⟨row, bearer, r, t', hs, -⟩
    cases hs
  · exact fun v c hc hid => mono (h.told v c hc hid)

/-- Unless it goes by an empty id, a handler that opens the task heard a denial. -/
theorem resolved_denied {w : World} {c : Config (gateway C t)} (hw : Inserted w.row)
    (h : Run (opensOnDenial C t) ((gateway C t).initial w) c) :
    Resolved C t denied c.world c.log := by
  refine (gateway_invariant (fun w l => Doubt C t w l ∧ Resolved C t denied w l) 
    ⟨doubt_inserted hw, resolved_inserted⟩ ?_ ?_ ?_ h).2
  · exact fun w l u κ _ _ h => ⟨h.1.spawn u κ, h.2.spawn u κ .inr⟩
  · intro w l u o γ r w' _ ⟨hd, hr⟩ ha hw' hg
    refine ⟨hd.act ha hw', hr.act .inr ha hw' ?_ fun c he hc hid => hc.upstreamId hid (hg he)⟩
    rintro c ⟨row, bearer, a, t', hs, ht, hv, hc⟩ hid
    obtain hs | ⟨hasking, -, -, he⟩ := told_next (u := u) ha hs
    · exact .inr (hr.told u c ⟨row, bearer, a, t', hs, ht, hv, hc⟩ hid)
    · rw [he]
      exact .inl ⟨verdict_denial hv hc hid u, hd.asking u hasking⟩
  · exact fun w l u _ h => ⟨h.1.halt u, h.2.halt u .inr⟩

/-- No handler asks, and none has a conclusion. -/
def Unasked (C : Container) (t : ResolvedTemplate) (l : Log) : Prop :=
  ∀ u, (phase C t l u).stage ≠ .asking ∧ ∀ c, ¬ Concluded C (phase C t l u) c

theorem Unasked.act {l : Log} {u : ℕ} {o : Op} {r : Except Exn o.Ans} (h : Unasked C t l)
    (ha : Allowed C t (phase C t l u) o) (hq : ¬ AllowedQuery C (phase C t l u)) :
    Unasked C t (.act u o r :: l) := by
  refine everyone_act (p := fun _ l' => l'.stage ≠ .asking ∧ ∀ c, ¬ Concluded C l' c) ⟨?_, ?_⟩ h
  · intro hs
    obtain hs | hq' := asking_next ha hs
    · exact (h u).1 hs
    · exact hq hq'
  · rintro c ⟨row, bearer, a, t', hs, hc⟩
    obtain hs | ⟨hs, -⟩ := told_next (u := u) ha hs
    · exact (h u).2 c ⟨row, bearer, a, t', hs, hc⟩
    · exact (h u).1 hs

theorem unasked_idle {l : Local} (h : l.stage = .free ∨ l.stage = .gone) :
    l.stage ≠ .asking ∧ ∀ c, ¬ Concluded C l c := by
  refine ⟨fun hs => ?_, ?_⟩
  · rcases h with h | h <;> rw [h] at hs <;> cases hs
  · rintro c ⟨row, bearer, a, t', hs, -⟩
    rcases h with h | h <;> rw [h] at hs <;> cases hs

/-- A template that does not ask by the client key leaves no handler with an answer. -/
theorem resolved_never {G : (gateway C t).Condition} {w : World} {c : Config (gateway C t)}
    {t' : ResolvedTemplate} (ht : templateOf C w.row = some t')
    (hs : t'.capabilities.confirmStrategy ≠ .queryByClientKey)
    (h : Run G ((gateway C t).initial w) c) : Resolved C t (fun _ => False) c.world c.log := by
  refine (gateway_invariant (fun w' l => Templated C t w.row.templateRef w' l ∧ Unasked C t l ∧
    Resolved C t (fun _ => False) w' l)
    ⟨templated_start, fun _ => unasked_idle (.inr rfl), resolved_inserted⟩ ?_ ?_ ?_ h).2.2
  · exact fun w l u κ _ _ h => ⟨h.1.spawn u κ,
      everyone_spawn (p := fun _ l' => l'.stage ≠ .asking ∧ ∀ c, ¬ Concluded C l' c)
        (unasked_idle (.inl rfl)) h.2.1, h.2.2.spawn u κ id⟩
  · intro w l u o γ r w' _ ⟨href, hn, hr⟩ ha hw _
    have hq : ¬ AllowedQuery C (phase C t l u) := by
      rintro ⟨-, row, t₁, hl, -, ht₁, hs₁⟩
      rw [templateOf_congr (href.seen u row (List.mem_of_mem_head? hl)), ht] at ht₁
      cases ht₁
      exact hs hs₁
    have hn' := hn.act (r := r) ha hq
    refine ⟨href.act ha hw, hn', hr.act id ha hw (fun c hc _ => ?_)
      fun c _ hc _ => absurd hc ((hn u).2 c)⟩
    have hu := (hn' u).2 c
    rw [phase_act, if_pos rfl] at hu
    exact hu hc
  · exact fun w l u _ h => ⟨h.1.halt u,
      everyone_halt (p := fun _ l' => l'.stage ≠ .asking ∧ ∀ c, ¬ Concluded C l' c)
        (unasked_idle (.inr rfl)) h.2.1, h.2.2.halt u id⟩

/-- **A task that was in doubt is claimed again only after a denial**, as long as it is never opened
on an answer that has an empty id.  One whose template does not ask by the client key is
never claimed again, whatever is answered. -/
theorem claim_after_denial {w : World} (hw : Inserted w.row) :
    (∀ c, Run (opensOnDenial C t) ((gateway C t).initial w) c → ∀ l₁ e l₂, c.log = l₁ ++ e :: l₂ →
      isClaim e = true → doubted l₂ → denied l₂) ∧
    ∀ t', templateOf C w.row = some t' → t'.capabilities.confirmStrategy ≠ .queryByClientKey →
      ∀ c, Run (gateway C t).anything ((gateway C t).initial w) c →
        ∀ l₁ e l₂, c.log = l₁ ++ e :: l₂ → isClaim e = true → ¬ doubted l₂ :=
  ⟨fun _ h => (resolved_denied hw h).claims, fun _ ht hs _ h => (resolved_never ht hs h).claims⟩

/-- The create call times out, the confirmation query is answered with `response`, and the task is
claimed again. -/
def claimedAgain {t : ResolvedTemplate} (response : HttpResponse) : Script t :=
  submitting 0 0 ++
    goesOn 0 0 [.done, .upstream (.error ⟨.timeoutException, "timeout"⟩), .done, .done] ++
    .spawn .compensateOrphan ::
      goesOn 1 0 [.done, .done, .text (some "key"), .text none, .done, .upstream (.ok response),
        .done, .done, .done, .done] ++
    .spawn .submitUpstream :: goesOn 2 0 [.done, .text (some "key"), .slot ⟨true, none⟩, .done]

/-- The newest event is a claim of a task that was in doubt. -/
def claimsInDoubt : Log → Bool
  | e :: l => isClaim e && decide (doubted l)
  | [] => false

theorem claim_after_blank_id :
    ∃ c, Run (gateway (sampleContainer sampleTemplate) sampleTemplate).anything
        (sampleStart sampleTemplate sampleRow) c ∧
      ∃ l₁ e l₂, c.log = l₁ ++ e :: l₂ ∧ isClaim e = true ∧ doubted l₂ ∧ ¬ denied l₂ := by
  obtain ⟨c, hrun, hc⟩ := reached (t := sampleTemplate) sampleRow
    (claimedAgain { statusCode := 200, json := some (.obj [("id", .str "")]) })
    (fun _ _ _ _ _ => true) (fun c => claimsInDoubt c.log && !decide (denied c.log.tail))
    (fun _ _ _ _ _ _ => trivial) (by decide +kernel)
  obtain ⟨hc, hn⟩ := Bool.and_eq_true_iff.mp hc
  cases hl : c.log with
  | nil => simp [hl, claimsInDoubt] at hc
  | cons e l =>
      simp only [hl, claimsInDoubt, Bool.and_eq_true, decide_eq_true_eq] at hc
      exact ⟨c, hrun, [], e, l, hl, hc.1, hc.2, by simpa [hl] using hn⟩

/-- Whether a handler that opens the task does so on an answer without success. -/
def opensOnRefusal (C : Container) (t : ResolvedTemplate) : (gateway C t).Check :=
  fun _ l u o r => !isReopen (.act u o r) || match (phase C t l u).stage with
    | .told _ _ (.ok response) => decide (300 ≤ response.statusCode)
    | _ => true

theorem opensOnDenial_of_refusal {w : World} {l : Log} {u : ℕ} {o : Op} {r : Except Exn o.Ans}
    (h : opensOnRefusal C t w l u o r = true) : opensOnDenial C t w l u o r := by
  intro he row bearer response t' hs _ hb
  have hcode : 300 ≤ response.statusCode := by simpa [opensOnRefusal, he, hs] using h
  have hlt := hb.2.1
  omega

theorem claim_after_denial_sample :
    ∃ c, Run (opensOnDenial (sampleContainer sampleTemplate) sampleTemplate)
        (sampleStart sampleTemplate sampleRow) c ∧ claimsInDoubt c.log = true ∧
      ∀ l₁ e l₂, c.log = l₁ ++ e :: l₂ → isClaim e = true → doubted l₂ → denied l₂ := by
  obtain ⟨c, hrun, hc⟩ := reached (t := sampleTemplate) sampleRow
    (claimedAgain { statusCode := 404 }) (opensOnRefusal _ _) (fun c => claimsInDoubt c.log)
    (fun _ _ _ _ _ => opensOnDenial_of_refusal) (by decide +kernel)
  exact ⟨c, hrun, hc, (claim_after_denial inserted_sampleRow).1 c hrun⟩

end AsyncGateway
