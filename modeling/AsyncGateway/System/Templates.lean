import AsyncGateway.Gateway.Direct
import AsyncGateway.System.Intake

/-!
# System — the template of an accepted task

What a request inserts has the alias and the number of the version it was dispatched with, and
every handler of the task looks that version up in the registry of its own process.  A process
that loaded the same files has it exactly when the registry chose version 1 of an alias of the
files (`accepted_is_processable_iff`): a version registered at run time is in the process that
registered it, and a version made of a channel's inline configuration is in none
(`direct_task_has_no_template`).
-/

namespace AsyncGateway

open Interleave (Prog)

/-- The row an operation inserted. -/
def insertedRow : (Σ o : AcceptOp, Except Exn o.Ans) → Option AsyncTask
  | ⟨.insert task, .ok true⟩ => some task
  | _ => none

/-- The result an operation answered the caller. -/
def acceptedResult : (Σ o : AcceptOp, Except Exn o.Ans) → Option AcceptResult
  | ⟨.respond (.accepted result), .ok ()⟩ => some result
  | _ => none

/-- The request was answered 2xx, and inserted the row. -/
def AcceptsWith {σ : Type} (serve : (o : AcceptOp) → σ → Except Exn o.Ans × σ) (F : Front)
    (q : AsyncRequest) (s : σ) (task : AsyncTask) : Prop :=
  task ∈ ((F.asyncDispatch q).trace serve s).filterMap insertedRow ∧
    ∃ result ∈ ((F.asyncDispatch q).trace serve s).filterMap acceptedResult,
      200 ≤ result.httpStatus ∧ result.httpStatus < 300

/-- **Every process that loaded the files has the template of the task.** -/
def Processable (L : TemplateLibrary) (files : List Json.Fields) (task : AsyncTask) : Prop :=
  ∀ R, Registry.Loaded L files R → R.get task.templateAlias (some task.templateVersion) ≠ none

/-! ### What a request inserts -/

section Inserts

variable {I : Intake} {r : CreateRequest}

/-- An insert of a row that names another version. -/
def Misnamed (r : CreateRequest) : AcceptOp → Prop
  | .insert task =>
      ¬ (task.templateAlias = r.template.aliasName ∧ task.templateVersion = r.version)
  | _ => False

theorem names_dispatchCreate : (dispatchCreate I r).Avoids (Misnamed r) :=
  Spared.dispatchCreate
    { others := fun o ho => by
        cases o <;> first | exact id | cases ho
      body := fun _ => id
      response := fun _ _ => id
      row := fun _ _ _ _ hn => hn ⟨rfl, rfl⟩
      credential := fun _ _ => id }

end Inserts

/-! ### What a process that loaded the files has -/

variable {F : Front} {files : List Json.Fields} {q : AsyncRequest}

/-- The registry chose the version of the request, and it is one the files gave. -/
def ServedByFiles (F : Front) (files : List Json.Fields) (q : AsyncRequest) : Prop :=
  q.aliasName ∈ Registry.fileAliases F.library files ∧
    ∃ tv, F.templateForChannel q.auth.channel q.aliasName q.draw = .ok tv ∧ tv.version = 1

theorem mem_pickFrom {pick acc : ℚ} {weighted : List (TemplateVersion × ℚ)} {tv : TemplateVersion}
    (h : pickFrom pick acc weighted = some tv) : ∃ w, (tv, w) ∈ weighted := by
  induction weighted generalizing acc with
  | nil => cases h
  | cons p rest ih =>
      obtain ⟨tv', w⟩ := p
      cases rest with
      | nil =>
          cases h
          exact ⟨w, List.mem_cons_self⟩
      | cons p' rest =>
          rw [pickFrom] at h
          · split at h
            · cases h
              exact ⟨w, List.mem_cons_self⟩
            · obtain ⟨w', hw'⟩ := ih h
              exact ⟨w', List.mem_cons_of_mem _ hw'⟩
          · exact List.cons_ne_nil _ _

/-- The version that is selected is one of the list. -/
theorem mem_selectVersion {versions : List TemplateVersion} {binding : List (String × ℚ)}
    {draw : ℚ} {tv : TemplateVersion} (h : selectVersion versions binding draw = some tv) :
    tv ∈ versions := by
  unfold selectVersion at h
  dsimp only at h
  split at h
  · exact (List.mem_filter.mp (List.mem_of_getLast? h)).1
  · obtain ⟨w, hw⟩ := mem_pickFrom h
    obtain ⟨tv', htv', heq⟩ := List.mem_map.mp (List.mem_filter.mp hw).1
    cases heq
    exact (List.mem_filter.mp htv').1

theorem mem_templateForChannel {channel a : String} {draw : ℚ} {tv : TemplateVersion}
    (h : F.templateForChannel channel a draw = .ok tv) : tv ∈ F.registry.versions a := by
  unfold Front.templateForChannel at h
  dsimp only at h
  split at h
  · cases h
    exact mem_selectVersion ‹_›
  · cases h

/-- A version made of an inline configuration is version 0. -/
theorem version_buildDirectVersion {channel a path : String} {tv : TemplateVersion}
    (h : F.buildDirectVersion channel a path = .ok (some tv)) : tv.version = 0 := by
  unfold Front.buildDirectVersion at h
  split at h
  · cases h
  · rename_i cfg _
    split_ifs at h with hmissing
    · cases h
    · cases hp : F.pathAllowed cfg path with
      | error x =>
          rw [hp] at h
          cases h
      | ok allowed =>
          rw [hp] at h
          simp only [bind, Except.bind] at h
          split at h
          · cases h
          · simp only [Except.ok.injEq, Option.map_eq_some_iff] at h
            obtain ⟨t, -, rfl⟩ := h
            rfl

theorem version_versionFor {tv : TemplateVersion} (h : F.versionFor q = .ok tv) :
    F.templateForChannel q.auth.channel q.aliasName q.draw = .ok tv ∨
      (∀ tv', F.templateForChannel q.auth.channel q.aliasName q.draw ≠ .ok tv') ∧
        tv.version = 0 := by
  unfold Front.versionFor at h
  split at h
  · cases h
    exact .inl ‹_›
  · rename_i x hx
    refine .inr ⟨fun tv' h' => ?_, ?_⟩
    · rw [hx] at h'
      cases h'
    split_ifs at h
    cases hb : F.buildDirectVersion q.auth.channel q.aliasName (Front.requestPath q) with
    | error x => rw [hb] at h; cases h
    | ok tv? =>
        rw [hb] at h
        cases tv? with
        | none => cases h
        | some tv' =>
            cases h
            exact version_buildDirectVersion hb

/-- What a request creates has the version found for it. -/
theorem of_createRequest {r : CreateRequest} (h : F.createRequest q = .ok (some r)) :
    ∃ tv, F.versionFor q = .ok tv ∧ r.template = tv.resolved ∧ r.version = tv.version := by
  unfold Front.createRequest at h
  cases hv : F.versionFor q with
  | error x => rw [hv] at h; cases h
  | ok tv =>
      rw [hv] at h
      simp only [bind, Except.bind] at h
      cases hm : matchRoute tv.resolved (Front.requestPath q) q.method with
      | error x => rw [hm] at h; cases h
      | ok route =>
          rw [hm] at h
          dsimp only at h
          split at h
          · cases h
          · cases hb : q.body.fields with
            | error x => rw [hb] at h; cases h
            | ok body =>
                rw [hb] at h
                cases ho : originOf q.originHeader with
                | error x => rw [ho] at h; cases h
                | ok origin =>
                    rw [ho] at h
                    cases h
                    exact ⟨tv, rfl, rfl, rfl⟩
          · cases h

/-- The row a request inserts has the version found for it. -/
theorem names_version {task : AsyncTask} (h : (F.asyncDispatch q).Asks (.insert task)) :
    ∃ tv, F.versionFor q = .ok tv ∧ task.templateAlias = tv.resolved.aliasName ∧
      task.templateVersion = tv.version := by
  unfold Front.asyncDispatch at h
  split at h
  · rename_i r hr
    obtain ⟨tv, hv, ht, hn⟩ := of_createRequest hr
    have hnames := not_not.mp (names_dispatchCreate _ h)
    exact ⟨tv, hv, hnames.1.trans (congrArg _ ht), hnames.2.trans hn⟩
  · exact h.elim
  · cases Prog.asks_perform.mp h

theorem insertedRow_eq_some {e : Σ o : AcceptOp, Except Exn o.Ans} {task : AsyncTask}
    (h : insertedRow e = some task) : e.1 = .insert task := by
  unfold insertedRow at h
  split at h
  · cases h
    rfl
  · cases h

/-- **An accepted task has its template in every process exactly when the files gave it.** -/
theorem accepted_is_processable_iff {σ : Type}
    (serve : (o : AcceptOp) → σ → Except Exn o.Ans × σ) (F : Front) (files : List Json.Fields)
    (hF : F.registry.Loaded F.library files) (q : AsyncRequest) (s : σ) (task : AsyncTask)
    (h : AcceptsWith serve F q s task) :
    Processable F.library files task ↔ ServedByFiles F files q := by
  obtain ⟨e, he, hrow⟩ := List.mem_filterMap.mp h.1
  have hasks : (F.asyncDispatch q).Asks (.insert task) :=
    insertedRow_eq_some hrow ▸ Prog.asks_of_mem_trace he
  obtain ⟨tv, hv, halias, hversion⟩ := names_version hasks
  constructor
  · intro hp
    obtain ⟨R, hR⟩ := hF.exists_load
    obtain ⟨h1, hmem⟩ := (Registry.mem_reloadFiles hR _ _).mp
      (Registry.get_ne_none.mp (hp R (.load hR)))
    rcases version_versionFor hv with hreg | ⟨-, h0⟩
    · have hnamed := F.registry.named _ tv (mem_templateForChannel hreg)
      exact ⟨(halias.trans hnamed.2) ▸ hmem, tv, hreg, hversion.symm.trans h1⟩
    · exact absurd (h1.symm.trans (hversion.trans h0)) one_ne_zero
  · rintro ⟨hmem, tv', hreg, h1⟩ R hR
    rcases version_versionFor hv with hreg' | ⟨hno, -⟩
    · obtain rfl : tv' = tv := Except.ok.inj (hreg.symm.trans hreg')
      have hnamed := F.registry.named _ tv' (mem_templateForChannel hreg)
      rw [halias, hnamed.2, hversion, h1]
      exact hR.has_one hmem
    · exact absurd hreg (hno tv')

/-! ### A template of a file, and one of a channel -/

section Sample

def textAt (raw : Json.Fields) (key : String) : Option String :=
  match raw.lookup key with
  | some (.str s) => some s
  | _ => none

/-- Drafts that give no more than a mode of the results to the minimal ones. -/
def sampleLibrary : TemplateLibrary where
  resolve raw := do
    let a ← textAt raw "alias"
    let baseUrl ← textAt raw "base_url"
    let createPath ← textAt raw "create_path"
    let resultLocation ← textAt raw "result_location"
    some
      { aliasName := a
        baseUrl := baseUrl
        createPath := createPath
        getPathTemplate := createPath ++ "/\x7bid\x7d"
        cancelPathTemplate := createPath ++ "/\x7bid\x7d"
        resultLocation := resultLocation
        idLocation := (textAt raw "id_location").getD "$.id"
        resultPolicy := { mode := if raw.lookup "result_policy" = none then .passthrough
          else .store } }

/-- The file of the template `video`. -/
def sampleFile : Json.Fields :=
  [("alias", .str "video"), ("base_url", .str "https://upstream"), ("create_path", .str "/tasks"),
    ("result_location", .str "$.url"), ("result_policy", .obj [("mode", .str "store")])]

/-- A channel that has a configuration inline. -/
def directPolicy : ChannelPolicy where
  urlDirect := some
    [("base_url", .str "https://upstream"), ("create_path", .str "/v1/tasks"),
      ("id_location", .str "$.task_id"), ("result_location", .str "$.output.url"),
      ("result_policy", .obj [("mode", .str "store")]),
      ("allowed_prefixes", .arr [.str "/v1/tasks"])]
  urlDirectEnabled := some true

/-- A process that has just loaded the file. -/
def sampleFront : Front where
  library := sampleLibrary
  registry := (Registry.reloadFiles sampleLibrary [sampleFile]).getD .empty
  intake := sampleIntake
  policies := fun channel => if channel = "direct-ch" then directPolicy else {}

/-- A create request of an alias. -/
def createOf (channel a rest : String) : AsyncRequest where
  aliasName := a
  rest := rest
  method := "POST"
  auth := { channel := channel, tenant := "default", bearer := some "Bearer key" }
  body := .json (.obj [("prompt", .str "x")])

/-- Stores that are empty, and take what they are given. -/
def emptyStores : (o : AcceptOp) → Unit → Except Exn o.Ans × Unit
  | .tryAcquire _, _ => (.ok { granted := true, retryAfter := none }, ())
  | .depth _, _ => (.ok (0 : ℕ), ())
  | .utcnow, _ => (.ok (0 : ℚ), ())
  | .now, _ => (.ok (0 : ℚ), ())
  | .findByIdempotency _ _, _ => (.ok none, ())
  | .newTaskId, _ => (.ok "0123456789abcdef01234567", ())
  | .newOpaqueToken, _ => (.ok "token", ())
  | .putJson _ _ _, _ => (.ok (), ())
  | .getJson _, _ => (.ok .null, ())
  | .insert _, _ => (.ok true, ())
  | .putCredential _ _ _, _ => (.ok (), ())
  | .audit _, _ => (.ok (), ())
  | .enqueue _ _, _ => (.ok (), ())
  | .inlineSubmit _, _ => (.ok { status := 200, body := none }, ())
  | .respond _, _ => (.ok (), ())
  | .write _ _, _ => (.ok true, ())

/-- What the request inserts there, and what it is answered. -/
def acceptedAs (q : AsyncRequest) : List (String × ℕ) × List ℕ :=
  let events := (sampleFront.asyncDispatch q).trace emptyStores ()
  ((events.filterMap insertedRow).map fun task => (task.templateAlias, task.templateVersion),
    (events.filterMap acceptedResult).map (·.httpStatus))

theorem acceptsWith_of_acceptedAs {q : AsyncRequest} {a : String} {version status : ℕ}
    (h : acceptedAs q = ([(a, version)], [status])) (hok : 200 ≤ status ∧ status < 300) :
    ∃ task, AcceptsWith emptyStores sampleFront q () task ∧ task.templateAlias = a ∧
      task.templateVersion = version := by
  have hrow : (a, version) ∈ (acceptedAs q).1 := by
    rw [h]
    exact List.mem_singleton_self _
  have hanswer : status ∈ (acceptedAs q).2 := by
    rw [h]
    exact List.mem_singleton_self _
  obtain ⟨task, htask, hnames⟩ := List.mem_map.mp hrow
  obtain ⟨result, hresult, rfl⟩ := List.mem_map.mp hanswer
  cases hnames
  exact ⟨task, ⟨htask, result, hresult, hok⟩, rfl, rfl⟩

theorem loaded_sampleFront : sampleFront.registry.Loaded sampleFront.library [sampleFile] := by
  have hload : (Registry.reloadFiles sampleLibrary [sampleFile]).isSome = true := by
    decide +kernel
  obtain ⟨R, hR⟩ := Option.isSome_iff_exists.mp hload
  refine .load ?_
  rw [sampleFront, hR]
  rfl

/-- A request of the template of the file. -/
theorem file_task_is_processable :
    ∃ task, AcceptsWith emptyStores sampleFront (createOf "channel" "video" "tasks") () task ∧
      Processable sampleLibrary [sampleFile] task := by
  have hrun : acceptedAs (createOf "channel" "video" "tasks") = ([("video", 1)], [202]) := by
    decide +kernel
  obtain ⟨task, haccepted, -, -⟩ := acceptsWith_of_acceptedAs hrun (by decide)
  refine ⟨task, haccepted, (accepted_is_processable_iff emptyStores sampleFront [sampleFile]
    loaded_sampleFront _ () task haccepted).mpr ⟨?_, ?_⟩⟩
  · decide +kernel
  · have hone : ((sampleFront.templateForChannel "channel" "video" 0).toOption.map
        (·.version)) = some 1 := by decide +kernel
    change ∃ tv, sampleFront.templateForChannel "channel" "video" 0 = .ok tv ∧ _
    cases htv : sampleFront.templateForChannel "channel" "video" 0 with
    | error x =>
        rw [htv] at hone
        cases hone
    | ok tv =>
        rw [htv] at hone
        exact ⟨tv, rfl, Option.some.inj hone⟩

/-- **A task that a channel's inline configuration is accepted with has its template nowhere.** -/
theorem direct_task_has_no_template :
    ¬ ∀ (σ : Type) (serve : (o : AcceptOp) → σ → Except Exn o.Ans × σ) (F : Front)
      (files : List Json.Fields) (_ : F.registry.Loaded F.library files) (q : AsyncRequest)
      (s : σ) (task : AsyncTask), AcceptsWith serve F q s task →
        Processable F.library files task := by
  intro h
  have hrun : acceptedAs (createOf "direct-ch" "whatever" "v1/tasks") =
      ([("whatever", 0)], [202]) := by decide +kernel
  obtain ⟨task, haccepted, halias, hversion⟩ := acceptsWith_of_acceptedAs hrun (by decide)
  have hget := h Unit emptyStores sampleFront [sampleFile] loaded_sampleFront _ () task haccepted
    _ loaded_sampleFront
  rw [halias, hversion] at hget
  exact hget (Registry.get_zero _ _)

end Sample

end AsyncGateway
