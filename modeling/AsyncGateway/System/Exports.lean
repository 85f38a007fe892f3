import AsyncGateway.System.Transfers

/-!
# System — the exported result

`store_result` puts the bytes it fetched into the object store and then sets `result_ref`, once:
the write of the database is a compare-and-swap.  The object is written before it, under a key that
does not depend on the run, and a put overwrites.  So a run that loses the swap may still have
written last, and what `result_summary` says of the object is of the one it replaced
(`overwritten_after_commit`).

Only a run that loaded the row before the swap puts at all.  Where none of these puts over another
one's object, but with the same bytes, what is exported stays (`exported_intact`); so it is where
every fetch brings the same content (`exported_intact_of_same`).
-/

namespace AsyncGateway

open TaskStatus TaskRuntime
open Interleave

/-! ### What a run puts, and what it exports -/

/-- What is known of a handler: whether the row it loaded last had no reference yet, the content it
fetched last, the object it put and has exported or is to export, and whether its write set the
reference. -/
structure Export where
  opened : Bool := false
  fetched : Option (List UInt8) := none
  put : Option (String × List UInt8) := none
  exported : Bool := false

namespace Export

variable (C : Container) (m : Export)

/-- The operations a handler may ask for: it puts what it fetched, and exports what it put. -/
def Allows : Op → Prop
  | .putBytes _ data => m.opened = true ∧ m.put = none ∧ m.fetched = some data
  | .apply (.setResultRef resultRef summary _) _ => m.exported = false ∧
      ∃ data, m.put = some (resultRef, data) ∧ summary = some (.obj [("bytes", .int data.length)])
  | _ => True

/-- After an operation was answered. -/
def next (o : Op) (r : Except Exn o.Ans) : Export :=
  match o, r with
  | .load, .ok row => { m with opened := row.any fun row => row.resultRef.isNone }
  | .recv .result, .ok (.ok response) =>
      { m with fetched :=
          if bringsResult C (.recv .result) (.ok (.ok response)) then some response.content
          else m.fetched }
  | .putBytes key data, .ok _ => { m with put := some (key, data) }
  | .apply (.setResultRef _ _ _) _, .ok true => { m with exported := true }
  | .apply (.setResultRef _ _ _) _, _ => { m with put := none }
  | _, _ => m

/-- A handler that is lost exports nothing more. -/
def gone : Export := if m.exported then m else {}

end Export

/-- **The export of a result.** -/
def exporting (C : Container) : Protocol effects Exn Work where
  State := Export
  start _ := {}
  idle := {}
  gone := Export.gone
  allows := Export.Allows
  next := Export.next C
  done _ := True
  done_idle := trivial
  done_gone _ := trivial

section Follows

variable {C : Container} {t : ResolvedTemplate} {m : Export} {α : Type}

theorem allows_exporting_of_apart {o : Op} (h : ¬ o.ofTransfer = true) : m.Allows o := by
  cases o with
  | apply op also =>
      cases op with
      | setResultRef resultRef summary degraded => exact absurd rfl h
      | _ => trivial
  | putBytes key data => exact absurd rfl h
  | _ => trivial

theorem follows_exporting_of_apart {p : Handler α} (h : Apart p) : Follows (exporting C) p m := by
  induction p generalizing m with
  | pure a => trivial
  | raise x => trivial
  | op o k ih =>
      exact ⟨allows_exporting_of_apart (h o (.inl rfl)),
        fun r => ih r fun o' ho' => h o' (.inr ⟨r, ho'⟩)⟩

variable {task : AsyncTask} {attempt : ℤ}

theorem follows_exporting_transferFailed {detail : String} {refs : Json.Fields} {note : String} :
    Follows (exporting C) (transferFailed task detail refs note) m :=
  .bind (.perform trivial fun _ => .perform trivial fun _ => trivial)

/-- A body that is fetched is the content fetched last. -/
theorem leads_exporting_fetchResult {url : String} (ho : m.opened = true) (hp : m.put = none)
    (he : m.exported = false) :
    Leads (exporting C) (fetchResult C url) m fun fetched m' => m'.opened = true ∧ m'.put = none ∧
      m'.exported = false ∧ ∀ bytes, fetched = .body bytes → m'.fetched = some bytes := by
  refine .bind (.perform trivial fun violation => ?_)
  cases violation with
  | some violation => exact ⟨ho, hp, he, fun bytes h => nomatch h⟩
  | none =>
      refine .bind (.perform trivial fun _ => .bind (.perform trivial fun answer => ?_))
      cases answer with
      | error exc => exact ⟨ho, hp, he, fun bytes h => nomatch h⟩
      | ok response =>
          refine .ite (fun _ => ⟨ho, hp, he, fun bytes h => nomatch h⟩) fun hgood => .ite
            (fun _ => ⟨ho, hp, he, fun bytes h => nomatch h⟩) fun hsmall =>
              ⟨ho, hp, he, fun bytes h => ?_⟩
          cases h
          exact if_pos (Bool.and_eq_true_iff.mpr
            ⟨decide_eq_true (not_not.mp hgood), decide_eq_true (not_lt.mp hsmall)⟩)

theorem follows_exporting_transfer {url : String} (ho : m.opened = true) (hp : m.put = none)
    (he : m.exported = false) : Follows (exporting C) (transfer C task attempt url) m := by
  refine .bind (.perform trivial fun _ => .bind ((leads_exporting_fetchResult ho hp he).mono
    fun fetched m' ⟨ho', hp', he', hf⟩ => ?_))
  cases fetched with
  | body payload =>
      -- what it exports is what it put, and that is what it fetched
      refine .bind (.perform ⟨ho', hp', hf payload rfl⟩ fun _ => .bind (.perform
        ⟨he', payload, rfl, rfl⟩ fun (hit : Bool) => ?_))
      exact .ite (fun _ => .perform trivial fun _ => trivial) fun _ => trivial
  | _ =>
      refine .ite (fun _ => ?_) fun _ => follows_exporting_transferFailed
      refine .bind (.bind (.perform trivial fun _ => .ofExcept fun delay _ => ?_))
      refine .bind (.bind (.perform trivial fun _ => .ofExcept fun next _ => ?_))
      exact .bind (.perform trivial fun _ => trivial)

theorem follows_exporting_storeResult (hp : m.put = none) (he : m.exported = false) :
    Follows (exporting C) (storeResult C attempt) m := by
  refine .bind (.perform trivial fun row => ?_)
  cases row with
  | none => trivial
  | some task =>
      refine .ite (fun hrow => ?_) fun _ => trivial
      have ho : (m.next C .load (.ok (some task))).opened = true :=
        Option.isNone_iff_eq_none.mpr hrow.2.1
      refine .bind (.bind (.ofExcept fun t' _ => .ite (fun _ => trivial) fun _ =>
        .bind (.ofExcept fun found _ => ?_)))
      split
      · exact follows_exporting_transfer ho hp he
      · exact follows_exporting_transferFailed

/-- **Every handler keeps to the protocol.** -/
theorem keeps_exporting (κ : Work) :
    Follows (exporting C) (κ.body C t) ((exporting C).start κ) := by
  cases κ with
  | storeResult attempt => exact follows_exporting_storeResult rfl rfl
  | _ => exact follows_exporting_of_apart (apart_body fun _ he => by cases he)

theorem follows_exports (κ : Work) :
    Follows ((bookkeeping C).both (exporting C)) (κ.body C t)
      (((bookkeeping C).both (exporting C)).start κ) :=
  (settles_books κ).follows.both (keeps_exporting κ)

end Follows

/-! ### The object store -/

/-- The put an event is, if it took effect; whether one that raised did is up to the store. -/
def puts (lands : ℕ → Bool) : Happening → Option (String × List UInt8)
  | .act _ (.putBytes key data) (.ok _) => some (key, data)
  | .act u (.putBytes key data) (.error _) => if lands u then some (key, data) else none
  | _ => none

/-- The object under a key: a put overwrites. -/
def objectAt (lands : ℕ → Bool) (key : String) : Log → Option (List UInt8)
  | [] => none
  | e :: l =>
      match puts lands e with
      | some (key', data) => if key' = key then some data else objectAt lands key l
      | none => objectAt lands key l

section Store

variable {lands : ℕ → Bool} {key : String} {e : Happening} {l : Log}

theorem objectAt_of_no_put (h : puts lands e = none) :
    objectAt lands key (e :: l) = objectAt lands key l := by
  rw [objectAt, h]

theorem objectAt_of_put {data : List UInt8} (h : puts lands e = some (key, data)) :
    objectAt lands key (e :: l) = some data := by
  rw [objectAt, h]
  exact if_pos rfl

theorem objectAt_of_other {key' : String} {data : List UInt8} (h : puts lands e = some (key', data))
    (hk : key' ≠ key) : objectAt lands key (e :: l) = objectAt lands key l := by
  rw [objectAt, h]
  exact if_neg hk

end Store

/-! ### In every run -/

section Runs

variable {C : Container} {t : ResolvedTemplate} {lands : ℕ → Bool}

/-- What is known of handler `u` after the log. -/
abbrev exportOf (C : Container) (t : ResolvedTemplate) (log : Log) (u : ℕ) : Export :=
  (exporting C).after (M := gateway C t) log u

/-- The task says that its result is exported, and the object is the one it tells of. -/
structure Exported (lands : ℕ → Bool) (key : String) (data : List UInt8) (row : AsyncTask)
    (l : Log) : Prop where
  status : row.status = succeeded
  resultRef : row.resultRef = some key
  object : objectAt lands key l = some data
  bytes : row.resultSummary = some (.obj [("bytes", .int data.length)])

/-- **The exported result is immutable**: the reference the task has stays, the bytes under it are
the ones that were there, and there are as many as the summary says. -/
def Intact (lands : ℕ → Bool) (c c' : Config (gateway C t)) : Prop :=
  ∀ key, c.world.row.resultRef = some key →
    ∃ data, Exported lands key data c.world.row c.log ∧ Exported lands key data c'.world.row c'.log

/-- **A run that loaded the row before the reference was set**, and puts its object, finds no
other run's object there that was exported or is still to be, but one of the same bytes. -/
def rivalsAgree (lands : ℕ → Bool) (C : Container) (t : ResolvedTemplate) :
    (gateway C t).Condition :=
  fun _ l u o r => (exportOf C t l u).opened = true →
    ∀ key data, puts lands (.act u o r) = some (key, data) →
      ∀ v ≠ u, ∀ other, (exportOf C t l v).put = some (key, other) → other = data

/-! #### The invariant -/

/-- What a handler has exported, or is to export, is there. -/
def Held (lands : ℕ → Bool) (l : Log) (m : Export) : Prop :=
  ∀ key data, m.put = some (key, data) → objectAt lands key l = some data

theorem Held.of_none {l : Log} {m : Export} (h : m.put = none) : Held lands l m := by
  intro key data hput
  rw [h] at hput
  cases hput

theorem Held.of_no_put {l : Log} {e : Happening} {m : Export} (h : Held lands l m)
    (he : puts lands e = none) : Held lands (e :: l) m := by
  intro key data hput
  rw [objectAt_of_no_put he]
  exact h key data hput

/-- Handler `v` exported the object under the key. -/
structure Won (m : Export) (key : String) (data : List UInt8) (row : AsyncTask) : Prop where
  put : m.put = some (key, data)
  exported : m.exported = true
  status : row.status = succeeded
  resultRef : row.resultRef = some key
  bytes : row.resultSummary = some (.obj [("bytes", .int data.length)])

/-- What holds of the row and the objects in every run whose puts agree. -/
structure Exporting (lands : ℕ → Bool) (C : Container) (t : ResolvedTemplate) (w : World)
    (l : Log) : Prop where
  held : ∀ u, Held lands l (exportOf C t l u)
  won : ∀ key, w.row.resultRef = some key →
    ∃ v data, Won (exportOf C t l v) key data w.row

variable {w w' : World} {l : Log} {u v : ℕ} {o : Op} {γ : Choice} {r : Except Exn o.Ans}
  {key : String} {data : List UInt8}

/-- What holds of every handler after an event. -/
theorem forall_export {Q : ℕ → Export → Prop} {l : Log} {e : Happening}
    (own : Q e.thread ((exporting C).turn (M := gateway C t) e (exportOf C t l e.thread)))
    (others : ∀ v, v ≠ e.thread → Q v (exportOf C t l v)) : ∀ v, Q v (exportOf C t (e :: l) v) :=
  Protocol.forall_after (P := exporting C) (M := gateway C t) own others

/-- A put is one of `put_bytes`. -/
theorem putBytes_of_puts (h : puts lands (.act u o r) = some (key, data)) :
    o = .putBytes key data := by
  unfold puts at h
  split at h
  · next heq =>
      cases heq
      cases h
      rfl
  · next heq =>
      cases heq
      split at h
      · cases h
        rfl
      · cases h
  · cases h

/-- An answer leaves to export what it put, or what was left before. -/
theorem put_next (lands : ℕ → Bool) (u : ℕ) {m : Export}
    (h : (m.next C o r).put = some (key, data)) :
    puts lands (.act u o r) = some (key, data) ∨
      (m.put = some (key, data) ∧ puts lands (.act u o r) = none) ∨
      ∃ key' data', o = .putBytes key' data' ∧ m.put = some (key, data) := by
  unfold Export.next at h
  split at h
  · exact .inr (.inl ⟨h, rfl⟩)
  · exact .inr (.inl ⟨h, rfl⟩)
  · exact .inl h
  · exact .inr (.inl ⟨h, rfl⟩)
  · cases h
  · cases he : puts lands (.act u o r) with
    | none => exact .inr (.inl ⟨h, rfl⟩)
    | some put => exact .inr (.inr ⟨put.1, put.2, putBytes_of_puts he, h⟩)

/-- What a handler put is there after an answer. -/
theorem held_act (h : ∀ u, Held lands l (exportOf C t l u))
    (ha : (exportOf C t l u).Allows o) (hg : rivalsAgree lands C t w l u o r) :
    ∀ v, Held lands (.act u o r :: l) (exportOf C t (.act u o r :: l) v) := by
  refine forall_export (Q := fun _ m => Held lands (.act u o r :: l) m) ?_ fun v hv => ?_
  · change Held lands (.act u o r :: l) ((exportOf C t l u).next C o r)
    intro key data hput
    rcases put_next lands u hput with he | ⟨hput, he⟩ | ⟨key', data', rfl, hold⟩
    · exact objectAt_of_put he
    · rw [objectAt_of_no_put he]
      exact h u key data hput
    · -- what is there to be exported is not put over
      rw [ha.2.1] at hold
      cases hold
  · cases he : puts lands (.act u o r) with
    | none => exact (h v).of_no_put he
    | some put =>
        obtain ⟨key', data'⟩ := put
        intro key data hput
        by_cases hk : key' = key
        · -- the one that puts loaded the row before the reference was set
          obtain rfl := putBytes_of_puts he
          obtain rfl : data = data' := hg ha.1 key' data' he v hv data (hk ▸ hput)
          exact hk ▸ objectAt_of_put he
        · rw [objectAt_of_other he hk]
          exact h v key data hput

namespace Won

/-- A handler that exported keeps what it put. -/
theorem next {m : Export} {row : AsyncTask} (h : Won m key data row) (ha : m.Allows o) :
    Won (m.next C o r) key data row := by
  unfold Export.next
  split
  · exact ⟨h.put, h.exported, h.status, h.resultRef, h.bytes⟩
  · exact ⟨h.put, h.exported, h.status, h.resultRef, h.bytes⟩
  · exact absurd (h.put.symm.trans ha.2.1) (Option.some_ne_none _)
  · exact absurd (h.exported.symm.trans ha.1) Bool.true_eq_false.mp
  · exact absurd (h.exported.symm.trans ha.1) Bool.true_eq_false.mp
  · exact h

theorem gone {m : Export} {row : AsyncTask} (h : Won m key data row) :
    Won m.gone key data row := by
  rw [Export.gone, if_pos h.exported]
  exact h

/-- The row of an exported result is not written any more. -/
theorem row_kept {m : Export} {b : Book} (h : Won m key data w.row) (hb : b.Allows o)
    (hw : respond w o γ = some (r, w')) : w'.row = w.row := by
  cases hh : hit (.act 0 o r) with
  | none => exact row_of_unhit hw hh
  | some op =>
      exfalso
      have hrun := respond_hit hw hh
      obtain ⟨also, he⟩ := hit_eq_some hh
      cases he
      have hop := ofTransfer_of_succeeded hb h.status hrun
      have set : w.row.resultRef.isNone = true → False := by
        intro hn
        rw [h.resultRef] at hn
        cases hn
      cases op with
      | setResultRef resultRef summary degraded =>
          exact set (cas_eq_some.mp (Except.ok.inj hrun)).2.1
      | scheduleTransferRetry next n => exact set (cas_eq_some.mp (Except.ok.inj hrun)).2.1
      | markResultUnavailable detail => exact set (cas_eq_some.mp (Except.ok.inj hrun)).2.1
      | _ => cases hop

/-- What a handler exported stays so through every event. -/
theorem spawn (h : Won (exportOf C t l v) key data w.row) (κ : Work)
    (hfresh : ∀ e ∈ l, e.thread ≠ u) :
    Won (exportOf C t (.spawn u κ :: l) v) key data w.row := by
  by_cases hv : v = u
  · -- a handler that is new has exported nothing
    have hnew : exportOf C t l v = {} :=
      hv ▸ Protocol.after_of_fresh (P := exporting C) (M := gateway C t) hfresh
    rw [hnew] at h
    cases h.put
  · rwa [show exportOf C t (.spawn u κ :: l) v = exportOf C t l v from
      Protocol.after_of_ne (P := exporting C) (M := gateway C t) hv]

theorem halt (h : Won (exportOf C t l v) key data w.row) (u : ℕ) :
    Won (exportOf C t (.halt u :: l) v) key data w.row := by
  refine forall_export (Q := fun v' m => v' = v → Won m key data w.row) (fun hu => ?_)
    (fun _ _ hv => hv ▸ h) v rfl
  change u = v at hu
  subst hu
  exact h.gone

theorem act {b : Book} (h : Won (exportOf C t l v) key data w.row) (hb : b.Allows o)
    (ha : (exportOf C t l u).Allows o) (hw : respond w o γ = some (r, w')) :
    Won (exportOf C t (.act u o r :: l) v) key data w'.row := by
  rw [h.row_kept hb hw]
  refine forall_export (Q := fun v' m => v' = v → Won m key data w.row) (fun hu => ?_)
    (fun _ _ hv => hv ▸ h) v rfl
  change u = v at hu
  subst hu
  exact h.next ha

end Won

namespace Exporting

theorem start (hw : Inserted w.row) : Exporting lands C t w [] where
  held _ := .of_none rfl
  won key h := by
    rw [hw.resultRef] at h
    cases h

theorem spawn (h : Exporting lands C t w l) (κ : Work) (hfresh : ∀ e ∈ l, e.thread ≠ u) :
    Exporting lands C t w (.spawn u κ :: l) where
  held := forall_export (Q := fun _ m => Held lands (.spawn u κ :: l) m) (.of_none rfl)
    fun v _ => (h.held v).of_no_put rfl
  won key hkey := by
    obtain ⟨v, data, hv⟩ := h.won key hkey
    exact ⟨v, data, hv.spawn κ hfresh⟩

theorem halt (h : Exporting lands C t w l) (u : ℕ) : Exporting lands C t w (.halt u :: l) where
  held := by
    refine forall_export (Q := fun _ m => Held lands (.halt u :: l) m) ?_
      fun v _ => (h.held v).of_no_put rfl
    change Held lands (.halt u :: l) (exportOf C t l u).gone
    unfold Export.gone
    split
    · exact (h.held u).of_no_put rfl
    · exact .of_none rfl
  won key hkey := by
    obtain ⟨v, data, hv⟩ := h.won key hkey
    exact ⟨v, data, hv.halt u⟩

/-- A write that sets the reference exports what the handler put. -/
theorem set (ha : (exportOf C t l u).Allows o) (hw : respond w o γ = some (r, w'))
    (hnone : w.row.resultRef = none) (hkey : w'.row.resultRef = some key) :
    ∃ data, Won ((exportOf C t l u).next C o r) key data w'.row := by
  cases hh : hit (.act u o r) with
  | none =>
      rw [row_of_unhit hw hh, hnone] at hkey
      cases hkey
  | some op =>
      have hrun := respond_hit hw hh
      obtain ⟨also, he⟩ := hit_eq_some hh
      cases he
      by_cases hop : ∃ resultRef summary degraded, op = .setResultRef resultRef summary degraded
      · obtain ⟨resultRef, summary, degraded, rfl⟩ := hop
        obtain ⟨-, data, hput, rfl⟩ := ha
        obtain ⟨hs, -, hrow⟩ := cas_eq_some.mp (Except.ok.inj hrun)
        have href : w'.row.resultRef = some resultRef := by simp [hrow, Write.apply]
        cases hkey.symm.trans href
        refine ⟨data, hput, rfl, ?_, href, by rw [hrow]; rfl⟩
        simpa [hrow, Write.apply] using hs
      · have kept := resultRef_kept hrun fun resultRef summary degraded he =>
          hop ⟨resultRef, summary, degraded, he⟩
        rw [kept, hnone] at hkey
        cases hkey

theorem act {b : Book} (h : Exporting lands C t w l) (hb : b.Allows o)
    (ha : (exportOf C t l u).Allows o) (hw : respond w o γ = some (r, w'))
    (hg : rivalsAgree lands C t w l u o r) : Exporting lands C t w' (.act u o r :: l) where
  held := held_act h.held ha hg
  won key hkey := by
    cases hrow : w.row.resultRef with
    | none =>
        obtain ⟨data, hwon⟩ := set ha hw hrow hkey
        refine ⟨u, data, ?_⟩
        rwa [show exportOf C t (.act u o r :: l) u = (exportOf C t l u).next C o r from if_pos rfl]
    | some key' =>
        obtain ⟨v, data, hv⟩ := h.won key' hrow
        have step := hv.act hb ha hw
        cases hkey.symm.trans step.resultRef
        exact ⟨v, data, step⟩

end Exporting

/-- What the two protocols allow of an operation. -/
theorem allows_exports (ha : ((bookkeeping C).both (exporting C)).allows
    (((bookkeeping C).both (exporting C)).after (M := gateway C t) l u) o) :
    ((bookkeeping C).after (M := gateway C t) l u).Allows o ∧ (exportOf C t l u).Allows o := by
  rwa [Protocol.after_both] at ha

theorem exporting_run {c : Config (gateway C t)} (hw : Inserted w.row)
    (h : Run (rivalsAgree lands C t) ((gateway C t).initial w) c) :
    Exporting lands C t c.world c.log := by
  refine Run.invariant (M := gateway C t) (P := (bookkeeping C).both (exporting C))
    (fun w l => Exporting lands C t w l) follows_exports (Keeps.initial w)
    (by exact Exporting.start hw) (fun _ _ _ κ hfresh hi => hi.spawn κ hfresh) ?_
    (fun _ _ u hi => hi.halt u) h
  intro w l u o γ r w' hi ha hw hg
  obtain ⟨hb, ha⟩ := allows_exports ha
  exact hi.act hb ha hw hg

/-- **Where no run that loaded the row before the reference was set puts over another one's
object**, but with the same bytes, the exported result is immutable. -/
theorem exported_intact {c c' : Config (gateway C t)} (h : Reachable C t (rivalsAgree lands C t) c)
    (h' : Run (rivalsAgree lands C t) c c') : Intact lands c c' := by
  intro key hkey
  obtain ⟨w, hw, run⟩ := h
  have before := exporting_run hw run
  obtain ⟨v, data, hwon⟩ := before.won key hkey
  have keeps : Keeps ((bookkeeping C).both (exporting C)) c :=
    Keeps.run follows_exports (Keeps.initial w) run
  have after : Exporting lands C t c'.world c'.log ∧
      Won (exportOf C t c'.log v) key data c'.world.row := by
    refine Run.invariant (M := gateway C t) (P := (bookkeeping C).both (exporting C))
      (fun w l => Exporting lands C t w l ∧ Won (exportOf C t l v) key data w.row)
      follows_exports keeps ⟨before, hwon⟩
      (fun _ _ _ κ hfresh hi => ⟨hi.1.spawn κ hfresh, hi.2.spawn κ hfresh⟩) ?_
      (fun _ _ u hi => ⟨hi.1.halt u, hi.2.halt u⟩) h'
    intro w l u o γ r w' hi ha hw hg
    obtain ⟨hb, ha⟩ := allows_exports ha
    exact ⟨hi.1.act hb ha hw hg, hi.2.act hb ha hw⟩
  exact ⟨data, ⟨hwon.status, hwon.resultRef, before.held v key data hwon.put, hwon.bytes⟩,
    after.2.status, after.2.resultRef, after.1.held v key data after.2.put, after.2.bytes⟩

/-! #### Fetches that bring the same content -/

/-- Every fetch that succeeds brings that content. -/
def bringsOnly (content : List UInt8) (C : Container) (t : ResolvedTemplate) :
    (gateway C t).Condition :=
  fun _ _ _ o r => match o, r with
    | .recv .result, .ok (.ok response) =>
        bringsResult C (.recv .result) (.ok (.ok response)) = true → response.content = content
    | _, _ => True

/-- What a handler fetched and put is that content. -/
def Export.Of (content : List UInt8) (m : Export) : Prop :=
  (∀ data, m.fetched = some data → data = content) ∧
    ∀ key data, m.put = some (key, data) → data = content

theorem Export.Of.idle {content : List UInt8} : Export.Of content {} :=
  ⟨fun _ h => (nomatch h), fun _ _ h => (nomatch h)⟩

theorem Export.Of.gone {content : List UInt8} {m : Export} (h : m.Of content) :
    m.gone.Of content := by
  unfold Export.gone
  split
  · exact h
  · exact .idle

theorem Export.Of.next {content : List UInt8} {m : Export} (h : m.Of content) (ha : m.Allows o)
    (hg : bringsOnly content C t w l u o r) : (m.next C o r).Of content := by
  unfold Export.next
  split
  · exact h
  · refine ⟨fun data hdata => ?_, h.2⟩
    dsimp only at hdata
    split at hdata
    · next hbrings => exact Option.some.inj hdata ▸ hg hbrings
    · exact h.1 data hdata
  · refine ⟨h.1, fun key data hput => ?_⟩
    cases hput
    exact h.1 _ ha.2.2
  · exact h
  · exact ⟨h.1, fun key data hput => (nomatch hput)⟩
  · exact h

/-- **Where every fetch brings the same content, the exported result is immutable**, whatever else
the runs do. -/
theorem exported_intact_of_same {content : List UInt8} {c c' : Config (gateway C t)}
    (h : Reachable C t (bringsOnly content C t) c) (h' : Run (bringsOnly content C t) c c') :
    Intact lands c c' := by
  have agree : ∀ {d d' : Config (gateway C t)}, Keeps (exporting C) d →
      (∀ u, (exportOf C t d.log u).Of content) → Run (bringsOnly content C t) d d' →
        Run (rivalsAgree lands C t) d d' ∧ ∀ u, (exportOf C t d'.log u).Of content := by
    intro d d' keeps hd run
    refine Run.mono_of_each (M := gateway C t) (P := exporting C) (Q := Export.Of content)
      keeps_exporting keeps hd (fun _ => .idle) (fun _ _ _ _ _ hm ha hg => hm.next ha hg)
      (fun _ hm => hm.gone) ?_ run
    intro w l u o r each ha _ _ key data hput v _ other hother
    obtain rfl := putBytes_of_puts hput
    rw [(each v).2 key other hother, (each u).1 data ha.2.2]
  obtain ⟨w, hw, run⟩ := h
  obtain ⟨run₀, each⟩ := agree (Keeps.initial w) (fun _ => .idle) run
  exact exported_intact ⟨w, hw, run₀⟩
    (agree (Keeps.run keeps_exporting (Keeps.initial w) run) each h').1

end Runs

/-! ### Runs of the sample gateway -/

section Sample

variable {t : ResolvedTemplate}

/-- Handler `u` runs `store_result`, and its fetch brings the content. -/
def fetchBrings (u : ℕ) (content : List UInt8) : Script t :=
  .spawn (.storeResult 1) ::
    goesOn u 0 [.done, .text (some "key"), .text none, .done,
      .upstream (.ok { statusCode := 200, content := content })]

/-- Two deliveries fetch the result before either stores it, and the first exports what it has. -/
def fetchedTwice (first second : List UInt8) : Script t :=
  succeededWithUrl ++ fetchBrings 2 first ++ fetchBrings 3 second ++
    goesOn 2 0 [.done, .done, .done]

/-- The put of the second, and its write, which misses. -/
def storedAgain : Script t := goesOn 3 0 [.done, .done]

/-- The first delivery exported its byte, and these bytes are under the key at the end. -/
def endsStored (second : List UInt8) (c c' : Config storing) : Bool :=
  c.world.row.resultRef.any fun key =>
    decide (c'.world.row.resultRef = some key ∧ objectAt (fun _ => false) key c.log = some [1] ∧
      objectAt (fun _ => false) key c'.log = some second)

/-- **The second delivery replaces the exported object**: the reference and the summary stay those
of the first. -/
theorem overwritten_after_commit :
    ∃ c c' : Config storing, Reachable _ _ (gateway _ _).anything c ∧
      Run (gateway _ _).anything c c' ∧ ¬ Intact (fun _ => false) c c' := by
  have h : ((storing.initial ⟨sampleRow, 0⟩).exec (fun _ _ _ _ _ => true)
      (inGateway (t := sampleTemplate) (fetchedTwice [1] [1, 2]))).any (fun c =>
        (c.exec (fun _ _ _ _ _ => true) (inGateway (t := sampleTemplate) storedAgain)).any
          (endsStored [1, 2] c)) = true := by
    decide +kernel
  obtain ⟨c, run, hc⟩ := Run.of_any_exec (fun _ _ _ _ _ _ => trivial) h
  obtain ⟨c', run', hc'⟩ := Run.of_any_exec (fun _ _ _ _ _ _ => trivial) hc
  obtain ⟨key, hkey, hend⟩ := (Option.any_eq_true _ _).mp hc'
  obtain ⟨-, hbefore, hafter⟩ := of_decide_eq_true hend
  refine ⟨c, c', ⟨_, inserted_sampleRow, run⟩, run', fun h => ?_⟩
  obtain ⟨data, hdata, hdata'⟩ := h key hkey
  have same := hdata.object.symm.trans hbefore
  rw [Option.some.inj same] at hdata'
  cases hdata'.object.symm.trans hafter

/-- The check of `rivalsAgree`. -/
def rivalsAgreeCheck (lands : ℕ → Bool) (C : Container) (t : ResolvedTemplate) :
    (gateway C t).Check :=
  fun _ l u o r => !(exportOf C t l u).opened || (puts lands (.act u o r)).all fun put =>
    l.all fun e => (exportOf C t l e.thread).put.all fun other =>
      decide (e.thread ≠ u → other.1 = put.1 → other.2 = put.2)

theorem rivalsAgree_of_check {lands : ℕ → Bool} {C : Container} {w : World} {l : Log} {u : ℕ}
    {o : Op} {r : Except Exn o.Ans} (h : rivalsAgreeCheck lands C t w l u o r = true) :
    rivalsAgree lands C t w l u o r := by
  intro hopened key data hput v hv other hother
  rw [rivalsAgreeCheck, hopened, hput] at h
  by_cases hmem : ∃ e ∈ l, e.thread = v
  · obtain ⟨e, he, rfl⟩ := hmem
    have hown := List.all_eq_true.mp h e he
    rw [hother] at hown
    exact of_decide_eq_true hown hv rfl
  · -- a handler that is not in the log put nothing
    have idle : exportOf C t l v = {} :=
      Protocol.after_of_fresh (P := exporting C) (M := gateway C t)
        fun e he hev => hmem ⟨e, he, hev⟩
    rw [idle] at hother
    cases hother

/-- Two deliveries that fetched the same bytes. -/
theorem exported_intact_twice :
    ∃ c c' : Config storing, Reachable _ _ (rivalsAgree (fun _ => false) _ _) c ∧
      Run (rivalsAgree (fun _ => false) _ _) c c' ∧ c'.log ≠ c.log ∧
      c.world.row.resultRef ≠ none ∧ Intact (fun _ => false) c c' := by
  have h : ((storing.initial ⟨sampleRow, 0⟩).exec (rivalsAgreeCheck (fun _ => false) _ _)
      (inGateway (t := sampleTemplate) (fetchedTwice [1] [1]))).any (fun c =>
        (c.exec (rivalsAgreeCheck (fun _ => false) _ _)
          (inGateway (t := sampleTemplate) storedAgain)).any fun c' =>
            decide (c'.log.length ≠ c.log.length) && endsStored [1] c c') = true := by
    decide +kernel
  obtain ⟨c, run, hc⟩ := Run.of_any_exec (fun _ _ _ _ _ => rivalsAgree_of_check) h
  obtain ⟨c', run', hc'⟩ := Run.of_any_exec (fun _ _ _ _ _ => rivalsAgree_of_check) hc
  obtain ⟨hlog, hend⟩ := Bool.and_eq_true_iff.mp hc'
  obtain ⟨key, hkey, -⟩ := (Option.any_eq_true _ _).mp hend
  have reach : Reachable _ _ (rivalsAgree (fun _ => false) _ _) c := ⟨_, inserted_sampleRow, run⟩
  refine ⟨c, c', reach, run', fun he => of_decide_eq_true hlog (congrArg List.length he), ?_,
    exported_intact reach run'⟩
  rw [hkey]
  exact Option.some_ne_none key

end Sample

end AsyncGateway
