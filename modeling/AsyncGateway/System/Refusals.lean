import AsyncGateway.System.FourEyes

/-!
# System — a canary change that is refused

`set_canary` binds the weight, and only then looks at the ticket.  What may fail before the binding
leaves the policies as they were; what may fail after it does not, unless that very weight was
bound before (`refused_unchanged_iff`).
-/

namespace AsyncGateway

open AdminApp
open Interleave (Prog)

/-- Between the two policies nothing changed, and so no selection of a version. -/
structure NoEffect (before after : String → ChannelPolicy) : Prop where
  policies : after = before
  selected : ∀ (F : Front) channel a draw,
    { F with policies := after }.templateForChannel channel a draw =
      { F with policies := before }.templateForChannel channel a draw

/-- The weight is bound already. -/
def ChannelPolicy.Binds (policy : ChannelPolicy) (a : String) (version : ℤ) (weight : ℚ) : Prop :=
  ∃ binding, policy.canary.lookup a = some binding ∧
    binding.lookup (toString version) = some weight

/-- The event of a change that is not refused. -/
def canaryChanged (actor : Actor) (ticketId : Option String) (a : String) (version : ℤ)
    (channel : String) (active : ℕ) : GovernanceEvent where
  eventType := "template.canary_changed"
  actor := actor
  subjectType := "template"
  subjectId := a ++ "@" ++ toString version
  refs := [("channel", .str channel), ("active_tasks", .int active),
    ("approval_ticket", jsonOfTicket ticketId)]
  detail := "灰度权重变更（权重 0 = 回滚）"

/-- What comes after the binding does not fail: the ticket holds, the tasks of the channel are
counted, and the audit is written. -/
def GoesThrough (w : AdminWorld) (actor : Actor) (ticketId : Option String) (a : String)
    (version : ℤ) (channel : String) (γ : AdminChoice) : Prop :=
  (∃ ticket, w.approvals.consume ticketId "template.canary" a γ.now = .ok ticket) ∧
    ∃ active, γ.answers (.activeTasks channel) = .ok active ∧
      ∃ u, γ.answers (.audit (canaryChanged actor ticketId a version channel active)) = .ok u

section Entries

variable {β : Type}

theorem setEntry_eq_self {entries : List (String × β)} {key : String} {value : β} :
    setEntry entries key value = entries ↔ entries.lookup key = some value := by
  induction entries with
  | nil => simp [setEntry]
  | cons entry rest ih =>
      obtain ⟨k, v⟩ := entry
      by_cases hk : k = key
      · subst hk
        simp [setEntry, eq_comm]
      · have hne : (key == k) = false := by simpa using Ne.symm hk
        simp [setEntry, hk, List.lookup_cons, hne, ih]

/-- The binding is as it was exactly where the weight is bound already. -/
theorem bindCanary_eq_self {policy : ChannelPolicy} {a : String} {version : ℤ} {weight : ℚ} :
    policy.bindCanary a version weight = policy ↔ policy.Binds a version weight := by
  have hcanary : policy.bindCanary a version weight = policy ↔
      setEntry policy.canary a (setEntry ((policy.canary.lookup a).getD []) (toString version)
        weight) = policy.canary := by
    constructor
    · exact fun h => congrArg ChannelPolicy.canary h
    · intro h
      unfold ChannelPolicy.bindCanary
      rw [h]
  rw [hcanary, setEntry_eq_self, ChannelPolicy.Binds]
  cases hbound : policy.canary.lookup a with
  | none => simp
  | some binding =>
      simp only [Option.getD_some, Option.some.injEq, exists_eq_left']
      rw [eq_comm, setEntry_eq_self]

end Entries

section Request

variable {A : AdminApp} {w : AdminWorld} {actor : Actor} {ticketId : Option String} {a : String}
  {body : Json.Fields} {γ : AdminChoice} {r : AdminRequest}

/-- The channel the request names. -/
def channelOf (A : AdminApp) (body : Json.Fields) : String :=
  A.container.pyStr (fieldOr body "channel" (.str ""))

/-- A request that comes to the binding, with what it binds. -/
structure Binding (A : AdminApp) (actor : Actor) (body : Json.Fields) (version : ℤ)
    (weight : PyFloat) : Prop where
  role : actor.has [.operator, .approver] = true
  version : A.intOf (fieldOr body "version" (.int 0)) = .ok version
  weight : A.floatOf (fieldOr body "weight" (.int 0)) = .ok weight
  channel : channelOf A body ≠ ""

/-- The world with the weight bound. -/
def AdminWorld.bound (w : AdminWorld) (r : AdminRequest) (channel a : String) (version : ℤ)
    (weight : ℚ) (now : Time) : AdminWorld :=
  { w.execute r .canary a now with
    policies := Function.update w.policies channel
      ((w.policies channel).bindCanary a version weight) }

theorem bound_policies (w : AdminWorld) (r : AdminRequest) (channel a : String) (version : ℤ)
    (weight : ℚ) (now : Time) : (w.bound r channel a version weight now).policies =
      Function.update w.policies channel ((w.policies channel).bindCanary a version weight) := rfl

/-- A request that does not come to the binding leaves the world. -/
theorem run_setCanary_unbound (h : ∀ version weight, ¬ Binding A actor body version weight) :
    ((A.setCanary actor ticketId a body).run (A.serve r γ) w).2 = w := by
  unfold setCanary Actor.require
  by_cases hrole : actor.has [.operator, .approver] = true
  · rw [if_pos hrole]
    cases hversion : A.intOf (fieldOr body "version" (.int 0)) with
    | error x => rfl
    | ok version =>
        cases hweight : A.floatOf (fieldOr body "weight" (.int 0)) with
        | error x => rfl
        | ok weight =>
            by_cases hchannel : channelOf A body = ""
            · have hrefuse : ∀ p : AdminHandler Unit,
                  (if channelOf A body = "" then refuse 400 "channel required" else p) =
                    refuse 400 "channel required" := fun _ => if_pos hchannel
              exact (congrArg (fun p => (Prog.run (A.serve r γ) p w).2) (hrefuse _)).trans rfl
            · exact absurd ⟨hrole, hversion, hweight, hchannel⟩ (h version weight)
  · rw [if_neg hrole]
    rfl

/-- One that does binds, and then goes on. -/
theorem setCanary_eq {version : ℤ} {weight : PyFloat} (h : Binding A actor body version weight) :
    A.setCanary actor ticketId a body =
      (askAdmin (.bindCanary (channelOf A body) a version (clampWeight weight))).bind fun _ =>
        (askAdmin (.consume ticketId "template.canary" a)).bind fun _ =>
          (askAdmin (.activeTasks (channelOf A body))).bind fun active =>
            askAdmin (.audit
              (canaryChanged actor ticketId a version (channelOf A body) active)) := by
  unfold setCanary Actor.require
  rw [if_pos h.role, h.version, h.weight]
  exact if_neg h.channel

theorem run_askAdmin_bind {α : Type} (o : AdminOp) (f : o.Ans → AdminHandler α)
    (w : AdminWorld) :
    ((askAdmin o).bind f).run (A.serve r γ) w =
      match A.serve r γ o w with
      | (.ok b, w') => (f b).run (A.serve r γ) w'
      | (.error x, w') => (.error x, w') := by
  have hrun : (askAdmin o).run (A.serve r γ) w = A.serve r γ o w := Prog.run_perform _ _ _
  rw [Prog.run_bind, hrun]
  rcases A.serve r γ o w with ⟨x | b, w'⟩ <;> rfl

/-- The weight is bound then, whatever comes after. -/
theorem run_setCanary_bound {version : ℤ} {weight : PyFloat}
    (h : Binding A actor body version weight) :
    ((A.setCanary actor ticketId a body).run (A.serve r γ) w).2 =
        w.bound r (channelOf A body) a version (clampWeight weight) γ.now ∧
      ((∃ x, ((A.setCanary actor ticketId a body).run (A.serve r γ) w).1 = .error x) ↔
        ¬ GoesThrough w actor ticketId a version (channelOf A body) γ) := by
  rw [setCanary_eq h]
  have hbind : ∀ f : Unit → AdminHandler Unit,
      ((askAdmin (.bindCanary (channelOf A body) a version (clampWeight weight))).bind f).run
          (A.serve r γ) w =
        (f ()).run (A.serve r γ)
          (w.bound r (channelOf A body) a version (clampWeight weight) γ.now) := fun _ => rfl
  rw [hbind]
  -- the ticket, the count and the audit come after the binding
  generalize hw : w.bound r (channelOf A body) a version (clampWeight weight) γ.now = w₁
  have happrovals : w₁.approvals = w.approvals := by rw [← hw]; rfl
  have hconsume : A.serve r γ (.consume ticketId "template.canary" a) w₁ =
      (w.approvals.consume ticketId "template.canary" a γ.now, w₁) := by
    rw [← happrovals]
    rfl
  have hcount : A.serve r γ (.activeTasks (channelOf A body)) w₁ =
      (γ.answers (.activeTasks (channelOf A body)), w₁) := rfl
  unfold GoesThrough
  rw [run_askAdmin_bind, hconsume]
  cases hticket : w.approvals.consume ticketId "template.canary" a γ.now with
  | error x => simp
  | ok ticket =>
      dsimp only
      rw [run_askAdmin_bind, hcount]
      cases hactive : γ.answers (.activeTasks (channelOf A body)) with
      | error x => simp
      | ok active =>
          have haudit : (askAdmin (.audit
              (canaryChanged actor ticketId a version (channelOf A body) active))).run
                (A.serve r γ) w₁ =
              (γ.answers (.audit
                (canaryChanged actor ticketId a version (channelOf A body) active)), w₁) :=
            Prog.run_perform _ _ _
          dsimp only
          rw [haudit]
          cases hwritten : γ.answers (.audit
              (canaryChanged actor ticketId a version (channelOf A body) active)) with
          | error x => simp [hwritten]
          | ok u => simp [hwritten]

end Request

/-- **A refused change leaves the policies exactly where it is refused before the binding**, or the
weight was bound before. -/
theorem refused_unchanged_iff (A : AdminApp) (w : AdminWorld) (actor : Actor)
    (ticketId : Option String) (a : String) (body : Json.Fields) (γ : AdminChoice) :
    (∀ x, ((A.setCanary actor ticketId a body).run
        (A.serve (.setCanary actor ticketId a body) γ) w).1 = .error x →
      NoEffect w.policies ((A.setCanary actor ticketId a body).run
        (A.serve (.setCanary actor ticketId a body) γ) w).2.policies) ↔
      ∀ version weight, Binding A actor body version weight →
        (w.policies (channelOf A body)).Binds a version (clampWeight weight) ∨
          GoesThrough w actor ticketId a version (channelOf A body) γ := by
  constructor
  · intro h version weight hb
    obtain ⟨hworld, herror⟩ := run_setCanary_bound hb
    by_cases hgoes : GoesThrough w actor ticketId a version (channelOf A body) γ
    · exact .inr hgoes
    · obtain ⟨x, hx⟩ := herror.mpr hgoes
      have hsame := (h x hx).policies
      rw [hworld, bound_policies] at hsame
      have hchannel := congrFun hsame (channelOf A body)
      rw [Function.update_self] at hchannel
      exact .inl (bindCanary_eq_self.mp hchannel)
  · intro h x hx
    by_cases hbinds : ∃ version weight, Binding A actor body version weight
    · obtain ⟨version, weight, hb⟩ := hbinds
      obtain ⟨hworld, herror⟩ := run_setCanary_bound hb
      have hbound := (h version weight hb).resolve_right (herror.mp ⟨x, hx⟩)
      rw [hworld, bound_policies, bindCanary_eq_self.mpr hbound, Function.update_eq_self]
      exact ⟨rfl, fun _ _ _ _ => rfl⟩
    · rw [run_setCanary_unbound fun version weight hb => hbinds ⟨version, weight, hb⟩]
      exact ⟨rfl, fun _ _ _ _ => rfl⟩

/-! ### A change without a ticket -/

section Sample

/-- A rollback that carries no ticket. -/
def unticketed : Except Exn Unit × AdminWorld :=
  (sampleAdmin.setCanary ⟨"operator-1", [.operator]⟩ none "video" rollback).run
    (sampleAdmin.serve (.setCanary ⟨"operator-1", [.operator]⟩ none "video" rollback) (atTime 0))
    ({} : AdminWorld)

/-- The request is refused, and the weight is bound. -/
theorem unticketed_bound : (∃ x, unticketed.1 = .error x) ∧
    ¬ NoEffect ({} : AdminWorld).policies unticketed.2.policies := by
  have hweight : sampleAdmin.floatOf (.int 0) = .ok (.fin 0) := by
    rw [floatOf, floatOfInt_of_le (by decide)]
    rfl
  have hb : Binding sampleAdmin ⟨"operator-1", [.operator]⟩ rollback 1 (.fin 0) :=
    ⟨by decide, rfl, hweight, by decide⟩
  have hrefused : ¬ GoesThrough ({} : AdminWorld) ⟨"operator-1", [.operator]⟩ none "video" 1
      (channelOf sampleAdmin rollback) (atTime 0) := by
    rintro ⟨⟨ticket, hticket⟩, -⟩
    cases hticket
  obtain ⟨hworld, herror⟩ := run_setCanary_bound hb
  refine ⟨herror.mpr hrefused, fun h => ?_⟩
  have hsame := h.policies
  rw [unticketed, hworld, bound_policies] at hsame
  have hchannel := congrFun hsame (channelOf sampleAdmin rollback)
  rw [Function.update_self, bindCanary_eq_self] at hchannel
  obtain ⟨binding, hbinding, -⟩ := hchannel
  cases hbinding

end Sample

end AsyncGateway
