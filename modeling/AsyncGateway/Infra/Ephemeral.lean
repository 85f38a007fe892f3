import AsyncGateway.Gateway.AcceptCreate
import AsyncGateway.Lib.Expiring
import AsyncGateway.Lib.ReadBack
import AsyncGateway.Lib.Server

/-!
# Infra — credentials and requests that expire

Redis keeps, for a time, what a task needs in another process: its credential, the body of its
create request and the archived response (`RedisStores`).  All of them are keys of one store, by
the tenant and the task.  In any sequence of calls a read gives what was put last for that very
task, as it was put, until it is dropped or its time is over, and nothing otherwise
(`stores_keep_what_was_put`).

The stores in memory have no times and keep an empty credential (`MemoryStores`).  They answer as
the ones on Redis for the first minute, where credentials are not empty
(`memory_stores_mirror_redis`).
-/

namespace AsyncGateway

open Interleave (Server)
open Expiring (Store Kept Tracks Touch keep kept elapsed)

/-! ### Keys -/

/-- `_key` of a credential. -/
def credentialKey (taskId : String) : String := "cred:" ++ taskId

/-- What is stored of a request: its body, or the response. -/
inductive Document : Type where
  | request (tenant taskId : String)
  | response (tenant taskId : String)
  deriving DecidableEq

namespace Document

def key : Document → String
  | .request tenant taskId => requestKey tenant taskId
  | .response tenant taskId => responseKey tenant taskId

def taskId : Document → String
  | .request _ taskId => taskId
  | .response _ taskId => taskId

end Document

/-- A task id, of which there are hexadecimal digits only. -/
def IsTaskId (taskId : String) : Prop := ':' ∉ taskId.toList

theorem credentialKey_injective {taskId taskId' : String}
    (h : credentialKey taskId = credentialKey taskId') : taskId = taskId' :=
  have hlist : "cred:".toList ++ taskId.toList = "cred:".toList ++ taskId'.toList := by
    simpa [credentialKey] using congrArg String.toList h
  String.toList_injective (List.append_cancel_left hlist)

theorem credentialKey_ne (taskId : String) (document : Document) :
    credentialKey taskId ≠ document.key := by
  intro h
  have hhead := congrArg (fun s => s.toList.head?) h
  cases document <;> simp [credentialKey, Document.key, requestKey, responseKey] at hhead

/-- Keys of one kind are cut at their last colon. -/
theorem cut_key {front tenant tenant' taskId taskId' : String} (hid : IsTaskId taskId)
    (hid' : IsTaskId taskId') (h : front ++ tenant ++ ":" ++ taskId =
      front ++ tenant' ++ ":" ++ taskId') : tenant = tenant' ∧ taskId = taskId' := by
  have hcut : (front.toList ++ tenant.toList) ++ ':' :: taskId.toList =
      (front.toList ++ tenant'.toList) ++ ':' :: taskId'.toList := by
    simpa using congrArg String.toList h
  obtain ⟨htenant, htask⟩ := Text.cut_last_inj hid hid' hcut
  exact ⟨String.toList_injective (List.append_cancel_left htenant), String.toList_injective htask⟩

/-- The key of a document is that of no other, whatever the tenants are called. -/
theorem Document.key_injective {d d' : Document} (hd : IsTaskId d.taskId)
    (hd' : IsTaskId d'.taskId) (h : d.key = d'.key) : d = d' := by
  cases d with
  | request tenant taskId =>
      cases d' with
      | request tenant' taskId' =>
          obtain ⟨rfl, rfl⟩ := @cut_key "req:" tenant tenant' taskId taskId' hd hd' h
          rfl
      | response tenant' taskId' =>
          have hlist := congrArg String.toList h
          simp [key, requestKey, responseKey] at hlist
  | response tenant taskId =>
      cases d' with
      | request tenant' taskId' =>
          have hlist := congrArg String.toList h
          simp [key, requestKey, responseKey] at hlist
      | response tenant' taskId' =>
          obtain ⟨rfl, rfl⟩ := @cut_key "reqresp:" tenant tenant' taskId taskId' hd hd' h
          rfl

/-! ### The stores -/

/-- A call on the stores, or some milliseconds that go by. -/
inductive StoreCall : Type where
  | putCredential (taskId headerValue : String) (ttlSeconds : ℤ)
  | getCredential (taskId : String)
  | dropCredential (taskId : String)
  | putJson (document : Document) (payload : Json) (ttlSeconds : ℤ)
  /-- `get_bytes` and `json.loads`. -/
  | getJson (document : Document)
  | dropJson (document : Document)
  | wait (ms : ℕ)

inductive StoreAnswer : Type where
  | done
  | header (value : Option String)
  | document (payload : Json)
  | requestDataNotFound (key : String)
  | jsonDecodeError

/-- `json.loads` of what `get_bytes` found. -/
def StoreAnswer.ofBytes (R : Json.FloatRepr) (key : String) : Option String → StoreAnswer
  | none => .requestDataNotFound key
  | some raw =>
      match Json.loads R raw with
      | some payload => .document payload
      | none => .jsonDecodeError

/-- The milliseconds of `ex=max(60, ttl_seconds)`. -/
def lifetime (ttlSeconds : ℤ) : ℕ := 1000 * (max 60 ttlSeconds).toNat

/-- `RedisEphemeralCredentials` and `RedisRequestStore`, on one Redis. -/
def RedisStores (R : Json.FloatRepr) : Server StoreCall StoreAnswer (Store String String)
  | .putCredential taskId headerValue ttlSeconds, s =>
      (.done, if headerValue = "" then s
        else s.set (credentialKey taskId) headerValue (lifetime ttlSeconds))
  | .getCredential taskId, s => (.header (s.get (credentialKey taskId)), s)
  | .dropCredential taskId, s => (.done, s.delete (credentialKey taskId))
  | .putJson document payload ttlSeconds, s =>
      (.done, s.set document.key (Json.plain payload) (lifetime ttlSeconds))
  | .getJson document, s => (.ofBytes R document.key (s.get document.key), s)
  | .dropJson document, s => (.done, s.delete document.key)
  | .wait ms, s => (.done, s.wait ms)

/-- The state of `MemoryEphemeralCredentials` and `MemoryRequestStore`. -/
structure MemoryState where
  credentials : String → Option String := fun _ => none
  values : String → Option String := fun _ => none

/-- `MemoryEphemeralCredentials` and `MemoryRequestStore`. -/
def MemoryStores (R : Json.FloatRepr) : Server StoreCall StoreAnswer MemoryState
  | .putCredential taskId headerValue _, s =>
      (.done, { s with credentials := Function.update s.credentials taskId (some headerValue) })
  | .getCredential taskId, s => (.header (s.credentials taskId), s)
  | .dropCredential taskId, s =>
      (.done, { s with credentials := Function.update s.credentials taskId none })
  | .putJson document payload _, s =>
      (.done,
        { s with values := Function.update s.values document.key (some (Json.plain payload)) })
  | .getJson document, s => (.ofBytes R document.key (s.values document.key), s)
  | .dropJson document, s =>
      (.done, { s with values := Function.update s.values document.key none })
  | .wait _, s => (.done, s)

/-! ### What was put last -/

/-- A call for a task id, whose payload can be written. -/
def StoreCall.Regular (R : Json.FloatRepr) : StoreCall → Prop
  | .putCredential taskId _ _ => IsTaskId taskId
  | .getCredential taskId => IsTaskId taskId
  | .dropCredential taskId => IsTaskId taskId
  | .putJson document payload _ => IsTaskId document.taskId ∧ Json.Writable R payload
  | .getJson document => IsTaskId document.taskId
  | .dropJson document => IsTaskId document.taskId
  | .wait _ => True

/-- What a call does to the credential of the task. -/
def StoreCall.onHeader (taskId : String) : StoreCall → Touch String
  | .putCredential taskId' headerValue ttlSeconds =>
      if taskId' = taskId ∧ headerValue ≠ "" then .put headerValue (lifetime ttlSeconds)
      else .wait 0
  | .dropCredential taskId' => if taskId' = taskId then .drop else .wait 0
  | .wait ms => .wait ms
  | _ => .wait 0

/-- What a call does to the document. -/
def StoreCall.onDocument (document : Document) : StoreCall → Touch Json
  | .putJson document' payload ttlSeconds =>
      if document' = document then .put payload (lifetime ttlSeconds) else .wait 0
  | .dropJson document' => if document' = document then .drop else .wait 0
  | .wait ms => .wait ms
  | _ => .wait 0

/-! ### What the stores on Redis show -/

section Shown

variable {R : Json.FloatRepr} {s : Store String String} {call : StoreCall} {taskId : String}
  {document : Document}

/-- A call goes on with the history of a credential. -/
theorem tracks_header {c : Option (Kept String)} (hid : IsTaskId taskId) (hcall : call.Regular R)
    (h : Tracks id s (credentialKey taskId) c) :
    Tracks id (RedisStores R call s).2 (credentialKey taskId)
      (keep (call.onHeader taskId) c) := by
  cases call with
  | getCredential taskId' => simpa [RedisStores, StoreCall.onHeader] using h
  | getJson document => simpa [RedisStores, StoreCall.onHeader] using h
  | wait ms => exact h.wait ms
  | putJson document payload ttlSeconds =>
      simpa [RedisStores, StoreCall.onHeader] using
        h.set_of_ne (credentialKey_ne taskId document) (Json.plain payload) (lifetime ttlSeconds)
  | dropJson document =>
      simpa [RedisStores, StoreCall.onHeader] using
        h.delete_of_ne (credentialKey_ne taskId document)
  | putCredential taskId' headerValue ttlSeconds =>
      by_cases hempty : headerValue = ""
      · simpa [RedisStores, StoreCall.onHeader, hempty] using h
      · by_cases htask : taskId' = taskId
        · subst htask
          simpa [RedisStores, StoreCall.onHeader, hempty] using
            Tracks.set_self id s (credentialKey taskId') headerValue (lifetime ttlSeconds)
        · simpa [RedisStores, StoreCall.onHeader, hempty, htask] using
            h.set_of_ne (fun heq => htask (credentialKey_injective heq).symm) headerValue
              (lifetime ttlSeconds)
  | dropCredential taskId' =>
      by_cases htask : taskId' = taskId
      · subst htask
        simpa [RedisStores, StoreCall.onHeader] using
          Tracks.delete_self id s (credentialKey taskId')
      · simpa [RedisStores, StoreCall.onHeader, htask] using
          h.delete_of_ne fun heq => htask (credentialKey_injective heq).symm

/-- A call goes on with the history of a document. -/
theorem tracks_document {c : Option (Kept Json)} (hid : IsTaskId document.taskId)
    (hcall : call.Regular R) (h : Tracks Json.plain s document.key c) :
    Tracks Json.plain (RedisStores R call s).2 document.key
      (keep (call.onDocument document) c) := by
  cases call with
  | getCredential taskId' => simpa [RedisStores, StoreCall.onDocument] using h
  | getJson document' => simpa [RedisStores, StoreCall.onDocument] using h
  | wait ms => exact h.wait ms
  | putCredential taskId' headerValue ttlSeconds =>
      by_cases hempty : headerValue = ""
      · simpa [RedisStores, StoreCall.onDocument, hempty] using h
      · simpa [RedisStores, StoreCall.onDocument, hempty] using
          h.set_of_ne (credentialKey_ne taskId' document).symm headerValue (lifetime ttlSeconds)
  | dropCredential taskId' =>
      simpa [RedisStores, StoreCall.onDocument] using
        h.delete_of_ne (credentialKey_ne taskId' document).symm
  | putJson document' payload ttlSeconds =>
      by_cases hdoc : document' = document
      · subst hdoc
        simpa [RedisStores, StoreCall.onDocument] using
          Tracks.set_self Json.plain s document'.key payload (lifetime ttlSeconds)
      · simpa [RedisStores, StoreCall.onDocument, hdoc] using
          h.set_of_ne (fun heq => hdoc (Document.key_injective hid hcall.1 heq).symm)
            (Json.plain payload) (lifetime ttlSeconds)
  | dropJson document' =>
      by_cases hdoc : document' = document
      · subst hdoc
        simpa [RedisStores, StoreCall.onDocument] using
          Tracks.delete_self Json.plain s document'.key
      · simpa [RedisStores, StoreCall.onDocument, hdoc] using
          h.delete_of_ne fun heq => hdoc (Document.key_injective hid hcall heq).symm

end Shown

/-- The milliseconds that go by in a sequence of calls. -/
def waited : List StoreCall → ℕ
  | [] => 0
  | .wait ms :: calls => ms + waited calls
  | _ :: calls => waited calls

theorem elapsed_onHeader (taskId : String) (calls : List StoreCall) :
    elapsed (calls.map (StoreCall.onHeader taskId)) = waited calls := by
  induction calls with
  | nil => rfl
  | cons call calls ih =>
      cases call <;> simp only [List.map_cons, StoreCall.onHeader, waited] <;>
        (try split) <;> simp [elapsed, ih]

theorem elapsed_onDocument (document : Document) (calls : List StoreCall) :
    elapsed (calls.map (StoreCall.onDocument document)) = waited calls := by
  induction calls with
  | nil => rfl
  | cons call calls ih =>
      cases call <;> simp only [List.map_cons, StoreCall.onDocument, waited] <;>
        (try split) <;> simp [elapsed, ih]

theorem onHeader_eq_put {taskId header : String} {call : StoreCall} {ttl : ℕ} :
    call.onHeader taskId = .put header ttl ↔ ∃ ttlSeconds,
      call = .putCredential taskId header ttlSeconds ∧ header ≠ "" ∧ lifetime ttlSeconds = ttl := by
  cases call with
  | putCredential taskId' headerValue ttlSeconds =>
      by_cases h : taskId' = taskId ∧ headerValue ≠ ""
      · rw [StoreCall.onHeader, if_pos h]
        obtain ⟨rfl, hne⟩ := h
        simp only [Touch.put.injEq, StoreCall.putCredential.injEq, true_and]
        constructor
        · rintro ⟨rfl, rfl⟩
          exact ⟨ttlSeconds, ⟨rfl, rfl⟩, hne, rfl⟩
        · rintro ⟨_, ⟨rfl, rfl⟩, -, rfl⟩
          exact ⟨rfl, rfl⟩
      · rw [StoreCall.onHeader, if_neg h]
        simp only [reduceCtorEq, StoreCall.putCredential.injEq, false_iff, not_exists]
        rintro _ ⟨⟨rfl, rfl, -⟩, hne, -⟩
        exact h ⟨rfl, hne⟩
  | dropCredential taskId' =>
      simp only [StoreCall.onHeader]
      split <;> simp
  | _ => simp [StoreCall.onHeader]

theorem onDocument_eq_put {document : Document} {payload : Json} {call : StoreCall} {ttl : ℕ} :
    call.onDocument document = .put payload ttl ↔ ∃ ttlSeconds,
      call = .putJson document payload ttlSeconds ∧ lifetime ttlSeconds = ttl := by
  cases call with
  | putJson document' payload' ttlSeconds =>
      by_cases h : document' = document
      · subst h
        rw [StoreCall.onDocument, if_pos rfl]
        simp only [Touch.put.injEq, StoreCall.putJson.injEq, true_and]
        constructor
        · rintro ⟨rfl, rfl⟩
          exact ⟨ttlSeconds, ⟨rfl, rfl⟩, rfl⟩
        · rintro ⟨_, ⟨rfl, rfl⟩, rfl⟩
          exact ⟨rfl, rfl⟩
      · rw [StoreCall.onDocument, if_neg h]
        simp only [reduceCtorEq, StoreCall.putJson.injEq, false_iff, not_exists]
        rintro _ ⟨⟨rfl, -⟩, -⟩
        exact h rfl
  | dropJson document' =>
      simp only [StoreCall.onDocument]
      split <;> simp
  | _ => simp [StoreCall.onDocument]

/-- A header is kept where it was put, and since then neither put again nor dropped nor left for
longer than it was put for. -/
theorem kept_header_iff {calls : List StoreCall} {taskId header : String} :
    (kept (calls.map (StoreCall.onHeader taskId))).bind Kept.read = some header ↔
      ∃ before ttlSeconds after,
        calls = before ++ .putCredential taskId header ttlSeconds :: after ∧
        header ≠ "" ∧ (∀ call ∈ after, (call.onHeader taskId).settles = false) ∧
          waited after < lifetime ttlSeconds := by
  rw [Expiring.read_kept_map_iff]
  simp only [onHeader_eq_put, elapsed_onHeader]
  constructor
  · rintro ⟨before, _, _, after, hsplit, ⟨ttlSeconds, rfl, hne, rfl⟩, hafter, hage⟩
    exact ⟨before, ttlSeconds, after, hsplit, hne, hafter, hage⟩
  · rintro ⟨before, ttlSeconds, after, hsplit, hne, hafter, hage⟩
    exact ⟨before, _, _, after, hsplit, ⟨ttlSeconds, rfl, hne, rfl⟩, hafter, hage⟩

theorem kept_document_iff {calls : List StoreCall} {document : Document} {payload : Json} :
    (kept (calls.map (StoreCall.onDocument document))).bind Kept.read = some payload ↔
      ∃ before ttlSeconds after, calls = before ++ .putJson document payload ttlSeconds :: after ∧
        (∀ call ∈ after, (call.onDocument document).settles = false) ∧
          waited after < lifetime ttlSeconds := by
  rw [Expiring.read_kept_map_iff]
  simp only [onDocument_eq_put, elapsed_onDocument]
  constructor
  · rintro ⟨before, _, _, after, hsplit, ⟨ttlSeconds, rfl, rfl⟩, hafter, hage⟩
    exact ⟨before, ttlSeconds, after, hsplit, hafter, hage⟩
  · rintro ⟨before, ttlSeconds, after, hsplit, hafter, hage⟩
    exact ⟨before, _, _, after, hsplit, ⟨ttlSeconds, rfl, rfl⟩, hafter, hage⟩

section Runs

variable {R : Json.FloatRepr} {calls : List StoreCall} (hcalls : ∀ call ∈ calls, call.Regular R)
  {taskId : String} {document : Document}
include hcalls

theorem get_header (hid : IsTaskId taskId) :
    ((RedisStores R).after calls {}).get (credentialKey taskId) =
      (kept (calls.map (StoreCall.onHeader taskId))).bind Kept.read := by
  have hstep : ∀ call s c, call.Regular R → Tracks id s (credentialKey taskId) c →
      Tracks id (RedisStores R call s).2 (credentialKey taskId)
        (keep (call.onHeader taskId) c) := fun _ _ _ hcall h => tracks_header hid hcall h
  have htracks := Tracks.after hstep hcalls
  rw [htracks.get, Option.map_id_fun, id]

theorem get_document (hid : IsTaskId document.taskId) :
    ((RedisStores R).after calls {}).get document.key =
      ((kept (calls.map (StoreCall.onDocument document))).bind Kept.read).map Json.plain := by
  have hstep : ∀ call s c, call.Regular R → Tracks Json.plain s document.key c →
      Tracks Json.plain (RedisStores R call s).2 document.key
        (keep (call.onDocument document) c) := fun _ _ _ hcall h => tracks_document hid hcall h
  exact (Tracks.after hstep hcalls).get

/-- **A read gives what was put last for that very task, as it was put, while it lasts**: nobody
else's calls, whatever the tenants are called, change what is read, and what is read is the header
or the document that was put, unless it was dropped or the time it was put for is over. -/
theorem stores_keep_what_was_put :
    (∀ {taskId header}, IsTaskId taskId →
      ((RedisStores R (.getCredential taskId) ((RedisStores R).after calls {})).1 =
          .header (some header) ↔
        ∃ before ttlSeconds after,
          calls = before ++ .putCredential taskId header ttlSeconds :: after ∧
            header ≠ "" ∧ (∀ call ∈ after, (call.onHeader taskId).settles = false) ∧
              waited after < lifetime ttlSeconds)) ∧
    ∀ {document}, IsTaskId document.taskId →
      (∀ {payload}, (RedisStores R (.getJson document) ((RedisStores R).after calls {})).1 =
          .document payload ↔
        ∃ before ttlSeconds after, calls = before ++ .putJson document payload ttlSeconds :: after ∧
          (∀ call ∈ after, (call.onDocument document).settles = false) ∧
            waited after < lifetime ttlSeconds) ∧
      (RedisStores R (.getJson document) ((RedisStores R).after calls {})).1 ≠
        .jsonDecodeError := by
  refine ⟨fun {taskId header} hid => ?_, fun {document} hid => ?_⟩
  · have hshown : (RedisStores R (.getCredential taskId) ((RedisStores R).after calls {})).1 =
        .header ((kept (calls.map (StoreCall.onHeader taskId))).bind Kept.read) :=
      congrArg _ (get_header hcalls hid)
    rw [hshown, StoreAnswer.header.injEq, kept_header_iff]
  · have hshown : (RedisStores R (.getJson document) ((RedisStores R).after calls {})).1 =
        .ofBytes R document.key
          (((kept (calls.map (StoreCall.onDocument document))).bind Kept.read).map Json.plain) :=
      congrArg (StoreAnswer.ofBytes R document.key) (get_document hcalls hid)
    rw [hshown]
    cases hkept : (kept (calls.map (StoreCall.onDocument document))).bind Kept.read with
    | none =>
        refine ⟨fun {payload} => ?_, by simp [StoreAnswer.ofBytes]⟩
        rw [← kept_document_iff, hkept]
        simp [StoreAnswer.ofBytes]
    | some payload =>
        obtain ⟨before, ttlSeconds, after, rfl, -, -⟩ := kept_document_iff.mp hkept
        have hwritable : Json.Writable R payload :=
          (hcalls _ (List.mem_append_right _ List.mem_cons_self)).2
        refine ⟨fun {payload'} => ?_, ?_⟩
        · rw [← kept_document_iff, hkept, Option.map_some, StoreAnswer.ofBytes,
            Json.loads_plain R hwritable]
          simp
        · rw [Option.map_some, StoreAnswer.ofBytes, Json.loads_plain R hwritable]
          simp

end Runs

/-- A credential and a body, whose tenant has a colon in its name, and 35 minutes. -/
def keptRequest : List StoreCall :=
  [.putCredential "0a1b" "Bearer key" 2100,
    .putJson (.request "acme:eu" "0a1b") (.obj [("prompt", .str "a cat")]) 2100,
    .putJson (.request "acme" "eu0a1b") (.obj []) 2100, .wait 2099999]

/-- Both are there in the last millisecond. -/
theorem stores_keep_a_request :
    (RedisStores Json.oneFloat (.getCredential "0a1b")
      ((RedisStores Json.oneFloat).after keptRequest {})).1 = .header (some "Bearer key") ∧
    (RedisStores Json.oneFloat (.getJson (.request "acme:eu" "0a1b"))
      ((RedisStores Json.oneFloat).after keptRequest {})).1 =
        .document (.obj [("prompt", .str "a cat")]) := by
  have hid : IsTaskId "0a1b" ∧ IsTaskId "eu0a1b" := by
    unfold IsTaskId
    decide
  have hregular : ∀ call ∈ keptRequest, call.Regular Json.oneFloat := by
    simp only [keptRequest, List.forall_mem_cons]
    exact ⟨hid.1, ⟨hid.1, List.nodup_singleton _, trivial, trivial⟩, ⟨hid.2, List.nodup_nil,
      trivial⟩, trivial, fun _ h => absurd h List.not_mem_nil⟩
  have hdocument : IsTaskId (Document.request "acme:eu" "0a1b").taskId := hid.1
  have hstores := stores_keep_what_was_put hregular
  refine ⟨(hstores.1 hid.1).mpr ⟨[], 2100, _, rfl, by decide, ?_, by decide⟩,
    (hstores.2 hdocument).1.mpr ⟨[.putCredential "0a1b" "Bearer key" 2100], 2100, _, rfl, ?_,
      by decide⟩⟩
  · simp only [List.forall_mem_cons]
    exact ⟨rfl, rfl, rfl, fun _ h => absurd h List.not_mem_nil⟩
  · simp only [List.forall_mem_cons]
    exact ⟨by decide, rfl, fun _ h => absurd h List.not_mem_nil⟩

/-! ### The stores in memory -/

/-- The stores in memory have what the stores on Redis have, which lasts for the first minute. -/
structure Mirrors (s : Store String String) (m : MemoryState) : Prop where
  credentials : ∀ taskId, (s.cells (credentialKey taskId)).map Prod.fst = m.credentials taskId
  values : ∀ document : Document,
    (s.cells document.key).map Prod.fst = m.values document.key
  lasting : ∀ key cell, s.cells key = some cell → 60000 ≤ cell.2

section Mirrors

variable {R : Json.FloatRepr} {s : Store String String} {m : MemoryState}

theorem Mirrors.get (h : Mirrors s m) (hnow : s.now < 60000) (key : String) :
    s.get key = (s.cells key).map Prod.fst := by
  rw [Store.get]
  cases hcell : s.cells key with
  | none => rfl
  | some cell =>
      rw [Option.filter_some, if_pos (decide_eq_true (hnow.trans_le (h.lasting key cell hcell)))]

/-- A call that changes a cell of a credential in both. -/
theorem Mirrors.onCredential (h : Mirrors s m) (taskId : String) {cell : Option (String × ℕ)}
    (hlasting : ∀ c, cell = some c → 60000 ≤ c.2) :
    Mirrors { s with cells := Function.update s.cells (credentialKey taskId) cell }
      { m with credentials := Function.update m.credentials taskId (cell.map Prod.fst) } := by
  refine ⟨fun taskId' => ?_, fun document => ?_, fun key c hc => ?_⟩
  · by_cases htask : taskId' = taskId
    · subst htask
      simp
    · simp [Function.update_of_ne htask,
        Function.update_of_ne (fun heq => htask (credentialKey_injective heq)), h.credentials]
  · simp [Function.update_of_ne (credentialKey_ne taskId document).symm, h.values]
  · by_cases hkey : key = credentialKey taskId
    · subst hkey
      exact hlasting c (by simpa using hc)
    · exact h.lasting key c (by simpa [Function.update_of_ne hkey] using hc)

/-- A call that changes a document in both. -/
theorem Mirrors.onValue (h : Mirrors s m) (document : Document) {cell : Option (String × ℕ)}
    (hlasting : ∀ c, cell = some c → 60000 ≤ c.2) :
    Mirrors { s with cells := Function.update s.cells document.key cell }
      { m with values := Function.update m.values document.key (cell.map Prod.fst) } := by
  refine ⟨fun taskId => ?_, fun document' => ?_, fun key c hc => ?_⟩
  · simp [Function.update_of_ne (credentialKey_ne taskId document), h.credentials]
  · by_cases hkey : document'.key = document.key
    · simp [hkey]
    · simp [Function.update_of_ne hkey, h.values]
  · by_cases hkey : key = document.key
    · subst hkey
      exact hlasting c (by simpa using hc)
    · exact h.lasting key c (by simpa [Function.update_of_ne hkey] using hc)

theorem sixty_le_lifetime (ttlSeconds : ℤ) : 60000 ≤ lifetime ttlSeconds := by
  have h60 : 60 ≤ max 60 ttlSeconds := le_max_left _ _
  unfold lifetime
  omega

/-- One call within the first minute. -/
theorem Mirrors.answer (h : Mirrors s m) {call : StoreCall} (hnow : s.now < 60000)
    (hheader : ∀ taskId ttlSeconds, call ≠ .putCredential taskId "" ttlSeconds) :
    (MemoryStores R call m).1 = (RedisStores R call s).1 ∧
      Mirrors (RedisStores R call s).2 (MemoryStores R call m).2 := by
  have put : ∀ (value : String) (ttlSeconds : ℤ) c, some (value, s.now + lifetime ttlSeconds) =
      some c → 60000 ≤ c.2 := by
    rintro value ttlSeconds c ⟨⟩
    exact (sixty_le_lifetime ttlSeconds).trans (Nat.le_add_left _ _)
  cases call with
  | getCredential taskId =>
      exact ⟨by rw [RedisStores, MemoryStores, h.get hnow, h.credentials], h⟩
  | getJson document => exact ⟨by rw [RedisStores, MemoryStores, h.get hnow, h.values], h⟩
  | wait ms => exact ⟨rfl, h.credentials, h.values, h.lasting⟩
  | putCredential taskId headerValue ttlSeconds =>
      have hne : headerValue ≠ "" := fun heq => hheader taskId ttlSeconds (heq ▸ rfl)
      refine ⟨rfl, ?_⟩
      rw [RedisStores, if_neg hne]
      exact h.onCredential taskId (put headerValue ttlSeconds)
  | dropCredential taskId => exact ⟨rfl, h.onCredential taskId fun c hc => nomatch hc⟩
  | putJson document payload ttlSeconds =>
      exact ⟨rfl, h.onValue document (put (Json.plain payload) ttlSeconds)⟩
  | dropJson document => exact ⟨rfl, h.onValue document fun c hc => nomatch hc⟩

/-- A call takes as long as it waits. -/
theorem now_RedisStores (call : StoreCall) (calls : List StoreCall) (s : Store String String) :
    (RedisStores R call s).2.now + waited calls = s.now + waited (call :: calls) := by
  cases call with
  | wait ms => exact Nat.add_assoc _ _ _
  | putCredential taskId headerValue ttlSeconds =>
      by_cases h : headerValue = "" <;> simp [RedisStores, waited, Store.set, h]
  | _ => rfl

end Mirrors

/-- **For the first minute, the stores in memory answer as those on Redis**, where credentials are
not empty: every value lasts for a minute at least. -/
theorem memory_stores_mirror_redis (R : Json.FloatRepr) {calls : List StoreCall}
    (hheaders : ∀ taskId ttlSeconds, .putCredential taskId "" ttlSeconds ∉ calls)
    (hminute : waited calls < 60000) :
    (MemoryStores R).answers calls {} = (RedisStores R).answers calls {} := by
  have general : ∀ (s : Store String String) (m : MemoryState), Mirrors s m →
      s.now + waited calls < 60000 →
      (MemoryStores R).answers calls m = (RedisStores R).answers calls s := by
    clear hminute
    induction calls with
    | nil => exact fun _ _ _ _ => rfl
    | cons call calls ih =>
        intro s m h hnow
        have hcall : ∀ taskId ttlSeconds, call ≠ .putCredential taskId "" ttlSeconds :=
          fun taskId ttlSeconds heq => hheaders taskId ttlSeconds (heq ▸ List.mem_cons_self)
        obtain ⟨hanswer, hnext⟩ := h.answer (R := R) ((Nat.le_add_right _ _).trans_lt hnow) hcall
        rw [Server.answers, Server.answers, hanswer]
        refine congrArg (List.cons _) (ih (fun taskId ttlSeconds hmem =>
          hheaders taskId ttlSeconds (List.mem_cons_of_mem _ hmem)) _ _ hnext ?_)
        rw [now_RedisStores]
        exact hnow
  exact general {} {} ⟨fun _ => rfl, fun _ => rfl, fun _ _ h => nomatch h⟩
    ((Nat.zero_add _).trans_lt hminute)

/-- A credential is put, read and dropped, and read again. -/
theorem memory_stores_mirror_four_calls :
    (MemoryStores Json.oneFloat).answers [.putCredential "0a1b" "Bearer key" 2100, .wait 59999,
        .getCredential "0a1b", .dropCredential "0a1b", .getCredential "0a1b"] {} =
      (RedisStores Json.oneFloat).answers [.putCredential "0a1b" "Bearer key" 2100, .wait 59999,
        .getCredential "0a1b", .dropCredential "0a1b", .getCredential "0a1b"] {} :=
  memory_stores_mirror_redis Json.oneFloat (by simp) (by decide)

end AsyncGateway
