import AsyncGateway.System.Exports

/-!
# System — whose object it is

Every result goes to one store.  `store_result` names the object by the row it loaded: the day the
task was created on, its tenant and its id.  No write of a handler changes the tenant or the id of a
row (`identity_run`, `DaoOp.keys_run`), so whatever the runs, a task puts no object but its own and
its row refers to no other (`own_objects`), and since the id of a task has no slash, no object is of
two tasks (`objects_apart`).
-/

namespace AsyncGateway

open TaskStatus TaskRuntime
open Interleave

/-! ### The keys of a task -/

/-- The key of a result of the task. -/
def OwnKey (C : Container) (task : AsyncTask) (key : String) : Prop :=
  ∃ createdAt, key = C.resultKey task.tenant task.taskId createdAt 1 "bin"

/-- What comes after the last slash. -/
theorem append_slash_inj {a b x y : List Char} (hx : '/' ∉ x) (hy : '/' ∉ y)
    (h : a ++ '/' :: x = b ++ '/' :: y) : x = y := by
  have hlast : ∀ {c z : List Char}, '/' ∉ z →
      (c ++ '/' :: z).reverse.takeWhile (· ≠ '/') = z.reverse := by
    intro c z hz
    rw [List.reverse_append, List.reverse_cons, List.append_assoc,
      List.takeWhile_append_of_pos fun d hd => ?_]
    · simp
    · have hne : d ≠ '/' := fun he => hz (he ▸ List.mem_reverse.mp hd)
      simpa using hne
  have hrev : x.reverse = y.reverse := by rw [← hlast hx, h, hlast hy]
  exact List.reverse_injective hrev

theorem toList_resultKey {C : Container} {task : AsyncTask} {createdAt : Time} :
    (C.resultKey task.tenant task.taskId createdAt 1 "bin").toList =
      ((C.utcDay createdAt ++ "/" ++ task.tenant).toList ++ '/' :: task.taskId.toList) ++
        "/attempt-1.bin".toList := by
  have hend : "/attempt-1.bin" = "/attempt-" ++ toString (1 : ℤ) ++ "." ++ "bin" := by
    decide +kernel
  have hslash : "/".toList = ['/'] := by decide +kernel
  rw [hend]
  simp only [Container.resultKey, String.toList_append, List.append_assoc, hslash,
    List.cons_append, List.nil_append]

/-- The key names the task. -/
theorem OwnKey.taskId_eq {C : Container} {task task' : AsyncTask} {key : String}
    (h : OwnKey C task key) (h' : OwnKey C task' key) (hslash : '/' ∉ task.taskId.toList)
    (hslash' : '/' ∉ task'.taskId.toList) : task.taskId = task'.taskId := by
  obtain ⟨createdAt, rfl⟩ := h
  obtain ⟨createdAt', hkey⟩ := h'
  have hlists := congrArg String.toList hkey
  rw [toList_resultKey, toList_resultKey] at hlists
  exact String.toList_inj.mp
    (append_slash_inj hslash hslash' (List.append_cancel_right hlists))

/-! ### What a handler names -/

/-- **The naming of the result**: the state is the row the handler loaded last. -/
def naming (C : Container) : Protocol effects Exn Work where
  State := Option AsyncTask
  start _ := none
  idle := none
  gone _ := none
  allows loaded
    | .putBytes key _ => ∃ task, loaded = some task ∧ OwnKey C task key
    | .apply (.setResultRef resultRef _ _) _ => ∃ task, loaded = some task ∧ OwnKey C task resultRef
    | _ => True
  next loaded o r :=
    match o, r with
    | .load, .ok row => row
    | _, _ => loaded
  done _ := True
  done_idle := trivial
  done_gone _ := trivial

section Follows

variable {C : Container} {t : ResolvedTemplate} {loaded : Option AsyncTask} {α : Type}

theorem allows_naming_of_apart {o : Op} (h : ¬ o.ofTransfer = true) :
    (naming C).allows loaded o := by
  cases o with
  | apply op also =>
      cases op with
      | setResultRef resultRef summary degraded => exact absurd rfl h
      | _ => trivial
  | putBytes key data => exact absurd rfl h
  | _ => trivial

theorem follows_naming_of_apart {p : Handler α} (h : Apart p) : Follows (naming C) p loaded := by
  induction p generalizing loaded with
  | pure a => trivial
  | raise x => trivial
  | op o k ih =>
      exact ⟨allows_naming_of_apart (h o (.inl rfl)),
        fun r => ih r fun o' ho' => h o' (.inr ⟨r, ho'⟩)⟩

variable {task : AsyncTask} {attempt : ℤ}

theorem follows_naming_transferFailed {detail : String} {refs : Json.Fields} {note : String} :
    Follows (naming C) (transferFailed task detail refs note) loaded :=
  .bind (.perform trivial fun _ => .perform trivial fun _ => trivial)

theorem leads_naming_fetchResult {url : String} :
    Leads (naming C) (fetchResult C url) loaded fun _ loaded' => loaded' = loaded := by
  refine .bind (.perform trivial fun violation => ?_)
  cases violation with
  | some violation => rfl
  | none =>
      refine .bind (.perform trivial fun _ => .bind (.perform trivial fun answer => ?_))
      cases answer with
      | error exc => rfl
      | ok response => exact .ite (fun _ => rfl) fun _ => .ite (fun _ => rfl) fun _ => rfl

theorem follows_naming_transfer {url : String} :
    Follows (naming C) (transfer C task attempt url) (some task) := by
  refine .bind (.perform trivial fun _ => .bind (leads_naming_fetchResult.mono
    fun fetched loaded' hloaded => ?_))
  have own : ∃ task', loaded' = some task' ∧
      OwnKey C task' (C.resultKey task.tenant task.taskId task.createdAt 1 "bin") :=
    ⟨task, hloaded, task.createdAt, rfl⟩
  cases fetched with
  | body payload =>
      refine .bind (.perform own fun _ => .bind (.perform own fun (hit : Bool) => ?_))
      exact .ite (fun _ => .perform trivial fun _ => trivial) fun _ => trivial
  | _ =>
      refine .ite (fun _ => ?_) fun _ => follows_naming_transferFailed
      refine .bind (.bind (.perform trivial fun _ => .ofExcept fun delay _ => ?_))
      refine .bind (.bind (.perform trivial fun _ => .ofExcept fun next _ => ?_))
      exact .bind (.perform trivial fun _ => trivial)

theorem follows_naming_storeResult : Follows (naming C) (storeResult C attempt) loaded := by
  refine .bind (.perform trivial fun row => ?_)
  cases row with
  | none => trivial
  | some task =>
      refine .ite (fun _ => ?_) fun _ => trivial
      refine .bind (.bind (.ofExcept fun t' _ => .ite (fun _ => trivial) fun _ =>
        .bind (.ofExcept fun found _ => ?_)))
      split
      · exact follows_naming_transfer
      · exact follows_naming_transferFailed

theorem keeps_naming (κ : Work) : Follows (naming C) (κ.body C t) ((naming C).start κ) := by
  cases κ with
  | storeResult attempt => exact follows_naming_storeResult
  | _ => exact follows_naming_of_apart (apart_body fun _ he => by cases he)

end Follows

/-! ### In every run -/

section Runs

variable {C : Container} {t : ResolvedTemplate}

/-- The row handler `u` loaded last. -/
abbrev loadedBy (C : Container) (t : ResolvedTemplate) (log : Log) (u : ℕ) : Option AsyncTask :=
  (naming C).after (M := gateway C t) log u

/-- The row is of the task. -/
structure IsOf (task row : AsyncTask) : Prop where
  tenant : row.tenant = task.tenant
  taskId : row.taskId = task.taskId

theorem OwnKey.of_row {task row : AsyncTask} {key : String} (h : OwnKey C row key)
    (hrow : IsOf task row) : OwnKey C task key := by
  obtain ⟨createdAt, rfl⟩ := h
  exact ⟨createdAt, by rw [hrow.tenant, hrow.taskId]⟩

/-- What a handler has loaded is the row as it is, or what it had loaded before. -/
theorem naming_next {loaded : Option AsyncTask} {w w' : World} {o : Op} {γ : Choice}
    {r : Except Exn o.Ans} {row : AsyncTask} (hr : respond w o γ = some (r, w'))
    (h : (naming C).next loaded o r = some row) : loaded = some row ∨ row = w.row := by
  cases o with
  | load =>
      obtain ⟨x, rfl⟩ | rfl := reply_load (respond_eq_some hr)
      · exact .inl h
      · exact .inr (Option.some.inj h).symm
  | _ => exact .inl h

/-- The object is put in the run, or the row refers to it at its end. -/
def UsesObject (c : Config (gateway C t)) (key : String) : Prop :=
  (∃ u data r, (.act u (.putBytes key data) r : Happening) ∈ c.log) ∨
    c.world.row.resultRef = some key

/-- What holds of the row and the objects in every run of the handlers of a task. -/
structure Owning (C : Container) (t : ResolvedTemplate) (task : AsyncTask) (w : World) (l : Log) :
    Prop where
  row : IsOf task w.row
  loaded : ∀ u row, loadedBy C t l u = some row → IsOf task row
  puts : ∀ u key data r, (.act u (.putBytes key data) r : Happening) ∈ l → OwnKey C task key
  resultRef : ∀ key, w.row.resultRef = some key → OwnKey C task key

namespace Owning

variable {task : AsyncTask} {w w' : World} {l : Log}

theorem start (hw : Inserted w.row) : Owning C t w.row w [] where
  row := ⟨rfl, rfl⟩
  loaded _ _ h := by cases h
  puts _ _ _ _ h := by cases h
  resultRef key h := by
    rw [hw.resultRef] at h
    cases h

/-- A start and a stop load nothing and put nothing. -/
theorem move {e : Happening} (h : Owning C t task w l) (he : ∀ u o r, e ≠ .act u o r)
    (hu : (naming C).turn (M := gateway C t) e (loadedBy C t l e.thread) =
      (none : (naming C).State)) : Owning C t task w (e :: l) where
  row := h.row
  loaded := by
    refine Protocol.forall_after (P := naming C) (M := gateway C t)
      (Q := fun _ loaded => ∀ row, loaded = some row → IsOf task row) ?_ fun v _ => h.loaded v
    rw [hu]
    intro row hrow
    cases hrow
  puts u key data r hmem := by
    rcases List.mem_cons.mp hmem with rfl | hmem
    · exact absurd rfl (he _ _ _)
    · exact h.puts u key data r hmem
  resultRef := h.resultRef

theorem act {u : ℕ} {o : Op} {γ : Choice} {r : Except Exn o.Ans} (h : Owning C t task w l)
    (ha : Allowed C t (phase C t l u) o) (hn : (naming C).allows (loadedBy C t l u) o)
    (hr : respond w o γ = some (r, w')) : Owning C t task w' (.act u o r :: l) where
  row := by
    cases hh : hit (.act u o r) with
    | none => exact row_of_unhit hr hh ▸ h.row
    | some op =>
        have hrun := respond_hit hr hh
        obtain ⟨also, he⟩ := hit_eq_some hh
        cases he
        have hidentity := congrArg Identity.tenant (identity_run ha hrun)
        have hkeys := congrArg Keys.taskId (DaoOp.keys_run hrun)
        exact ⟨hidentity.trans h.row.tenant, hkeys.trans h.row.taskId⟩
  loaded := by
    refine Protocol.forall_after (P := naming C) (M := gateway C t)
      (Q := fun _ loaded => ∀ row, loaded = some row → IsOf task row) (fun row hrow => ?_)
      fun v _ => h.loaded v
    rcases naming_next hr hrow with hnext | rfl
    · exact h.loaded u row hnext
    · exact h.row
  puts v key data r' hmem := by
    rcases List.mem_cons.mp hmem with he | hmem
    · cases he
      obtain ⟨row, hloaded, hown⟩ := hn
      exact hown.of_row (h.loaded _ row hloaded)
    · exact h.puts v key data r' hmem
  resultRef key hkey := by
    cases hh : hit (.act u o r) with
    | none => exact h.resultRef key (row_of_unhit hr hh ▸ hkey)
    | some op =>
        have hrun := respond_hit hr hh
        obtain ⟨also, he⟩ := hit_eq_some hh
        cases he
        by_cases hop : ∃ resultRef summary degraded, op = .setResultRef resultRef summary degraded
        · obtain ⟨resultRef, summary, degraded, rfl⟩ := hop
          obtain ⟨row, hloaded, hown⟩ := hn
          obtain ⟨-, -, hrow⟩ := cas_eq_some.mp (Except.ok.inj hrun)
          have href : w'.row.resultRef = some resultRef := by simp [hrow, Write.apply]
          cases hkey.symm.trans href
          exact hown.of_row (h.loaded u row hloaded)
        · have kept := resultRef_kept hrun fun resultRef summary degraded he =>
            hop ⟨resultRef, summary, degraded, he⟩
          exact h.resultRef key (kept ▸ hkey)

end Owning

variable {G : (gateway C t).Condition} {w : World} {c : Config (gateway C t)}

/-- **A task puts no object but its own, and its row refers to no other.** -/
theorem own_objects (hw : Inserted w.row) (h : Run G ((gateway C t).initial w) c) {key : String}
    (hkey : UsesObject c key) : OwnKey C w.row key := by
  have howning : Owning C t w.row c.world c.log := by
    refine Run.invariant (M := gateway C t) (P := (conduct C t).both (naming C))
      (fun w' l => Owning C t w.row w' l) (fun κ => (follows_conduct κ).both (keeps_naming κ))
      (Keeps.initial w) (by exact Owning.start hw)
      (fun _ _ _ _ _ hi => hi.move (fun _ _ _ he => nomatch he) rfl) ?_
      (fun _ _ _ hi => hi.move (fun _ _ _ he => nomatch he) rfl) h
    intro w' l u o γ r w'' hi ha hr _
    have ha : ((conduct C t).both (naming C)).allows
        (((discipline C t).after l u, (bookkeeping C).after l u), (naming C).after l u) o := by
      rwa [Protocol.after_both, Protocol.after_both] at ha
    exact hi.act ha.1.1 ha.2 hr
  rcases hkey with ⟨u, data, r, hmem⟩ | href
  · exact howning.puts u key data r hmem
  · exact howning.resultRef key href

/-- **No object is of two tasks**, whatever the runs of their handlers. -/
theorem objects_apart {t' : ResolvedTemplate} {G' : (gateway C t').Condition} {w' : World}
    {c' : Config (gateway C t')} (hw : Inserted w.row) (hw' : Inserted w'.row)
    (hne : w.row.taskId ≠ w'.row.taskId) (hslash : '/' ∉ w.row.taskId.toList)
    (hslash' : '/' ∉ w'.row.taskId.toList) (h : Run G ((gateway C t).initial w) c)
    (h' : Run G' ((gateway C t').initial w') c') (key : String) :
    ¬ (UsesObject c key ∧ UsesObject c' key) := by
  rintro ⟨hkey, hkey'⟩
  exact hne ((own_objects hw h hkey).taskId_eq (own_objects hw' h' hkey') hslash hslash')

/-- A delivery fetches the result and exports it. -/
def exportedOnce {t : ResolvedTemplate} : Script t :=
  succeededWithUrl ++ fetchBrings 2 [1] ++ goesOn 2 0 [.done, .done, .done]

/-- Two tasks whose results were exported. -/
theorem objects_apart_exported : ∃ c c' : Config storing, c.world.row.resultRef ≠ none ∧
    c'.world.row.resultRef ≠ none ∧ ∀ key, ¬ (UsesObject c key ∧ UsesObject c' key) := by
  have hone : ((storing.initial ⟨sampleRow, 0⟩).exec (fun _ _ _ _ _ => true)
      (inGateway (t := sampleTemplate) exportedOnce)).any
        (fun c => c.world.row.resultRef.isSome) = true := by
    decide +kernel
  have hother : ((storing.initial ⟨{ sampleRow with taskId := "other" }, 0⟩).exec
      (fun _ _ _ _ _ => true) (inGateway (t := sampleTemplate) exportedOnce)).any
        (fun c => c.world.row.resultRef.isSome) = true := by
    decide +kernel
  obtain ⟨c, run, hc⟩ : ∃ c, Run (gateway _ _).anything _ c ∧ _ :=
    Run.of_any_exec (fun _ _ _ _ _ _ => trivial) hone
  obtain ⟨c', run', hc'⟩ : ∃ c, Run (gateway _ _).anything _ c ∧ _ :=
    Run.of_any_exec (fun _ _ _ _ _ _ => trivial) hother
  exact ⟨c, c', Option.isSome_iff_ne_none.mp hc, Option.isSome_iff_ne_none.mp hc',
    objects_apart inserted_sampleRow ⟨rfl, rfl, rfl, rfl, rfl, rfl, rfl, rfl⟩ (by decide)
      (by decide +kernel) (by decide +kernel) run run'⟩

end Runs

end AsyncGateway
