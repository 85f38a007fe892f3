import AsyncGateway.Db.Attributes
import AsyncGateway.System.Replays

/-!
# System — the frame of the attributes

Any number of calls of the DAO at work on one task (`daoCalls`).  Each call is one statement, but
for `note_attribute`, which reads the row in one and writes it in another.  A key of the attributes
keeps its value as long as no write names it, in a run whose writes are `careful`: what replaces the
attributes finds no other key there, and a `note_attribute` writes over no key that was written
since it read (`attribute_kept`).
-/

namespace AsyncGateway

open TaskStatus
open Interleave

/-! ### Calls of the DAO -/

/-- A call of the operation; `note_attribute` reads for itself. -/
def DaoOp.call : DaoOp → Handler Unit
  | .noteAttribute _ attributes => (AsyncGateway.noteAttribute attributes).bind fun _ => .pure ()
  | op => (applyOp op).bind fun _ => .pure ()

/-- **The DAO, on one task.** -/
abbrev daoCalls : Machine effects Exn where
  Kind := DaoOp
  body := DaoOp.call
  World := World
  Choice := Choice
  respond := respond

/-- The write that hit, where the event is one. -/
def written : Event effects Exn DaoOp → Option DaoOp
  | .act _ (.apply op _) (.ok true) => some op
  | _ => none

/-- A write that hits and names the key. -/
def writesKey (key : String) (e : Event effects Exn DaoOp) : Bool := (written e).any (·.names key)

/-- Call `u` reads the attributes. -/
def isReading (u : ℕ) : Event effects Exn DaoOp → Bool
  | .act v .readAttributes (.ok _) => decide (v = u)
  | _ => false

/-- The writes that hit since call `u` read the attributes, or all. -/
def sinceReading (u : ℕ) : daoCalls.Log → List DaoOp
  | [] => []
  | e :: l => if isReading u e then [] else (written e).toList ++ sinceReading u l

/-- What replaces the attributes finds no key but those it names, and what `note_attribute` writes
names every key that was written since it read. -/
def careful : daoCalls.Condition := fun w l u o r =>
  ∀ op, written (.act u o r) = some op → match op with
    | .noteAttribute _ attributes => ∀ op' ∈ sinceReading u l, ∀ key, op'.names key = true →
        (attributes.lookup key).isSome = true
    | op => op.replaced ≠ none → ∀ key, op.names key = false → w.row.attribute key = none

theorem written_eq_some {u : ℕ} {o : Op} {r : Except Exn o.Ans} {op : DaoOp}
    (h : written (.act u o r) = some op) :
    ∃ also, (.act u o r : Event effects Exn DaoOp) = .act u (.apply op also) (.ok true) := by
  unfold written at h
  split at h
  · rename_i he
    cases he
    cases h
    exact ⟨_, rfl⟩
  · cases h

/-! ### What a call has read -/

/-- A `note_attribute` writes with what it read itself. -/
def noting : Protocol effects Exn DaoOp where
  State := Option (Option Json.Fields)
  start _ := none
  idle := none
  gone _ := none
  allows m o := match o with
    | .apply (.noteAttribute read _) _ => m = some read
    | _ => True
  next m o r := match o, r with
    | .readAttributes, .ok (some read) => some read
    | _, _ => m
  done _ := True
  done_idle := trivial
  done_gone _ := trivial

theorem follows_noting (op : DaoOp) : Follows noting op.call (noting.start op) := by
  cases op with
  | noteAttribute read attributes =>
      refine .bind (.bind (.perform trivial fun found => ?_))
      cases found with
      | none => exact .pure trivial
      | some read => exact .perform rfl fun _ => .pure trivial
  | _ => exact .bind (.perform trivial fun _ => .pure trivial)

variable {w w' : World} {l : daoCalls.Log} {u : ℕ} {o : Op} {γ : Choice} {r : Except Exn o.Ans}

/-- An operation is a write that hit, or it leaves the row. -/
theorem written_respond (h : respond w o γ = some (r, w')) :
    (written (.act u o r) = none ∧ w'.row = w.row) ∨
      ∃ op now, written (.act u o r) = some op ∧ op.run now w.row = .ok (some w'.row) := by
  by_cases ho : ∃ op also, o = .apply op also
  · obtain ⟨op, also, rfl⟩ := ho
    rcases reply_apply (respond_eq_some h) with ⟨x, rfl, hrow⟩ | ⟨rfl, hrow⟩ | ⟨now, rfl, hrun⟩
    · exact .inl ⟨rfl, hrow⟩
    · exact .inl ⟨rfl, hrow⟩
    · exact .inr ⟨op, now, rfl, hrun⟩
  · have hno : ∀ op also, o ≠ .apply op also := fun op also he => ho ⟨op, also, he⟩
    refine .inl ⟨?_, reply_row (respond_eq_some h) hno⟩
    cases hh : written (.act u o r) with
    | none => rfl
    | some op =>
        obtain ⟨also, he⟩ := written_eq_some hh
        cases he
        exact absurd rfl (hno _ _)

/-! ### What a careful run keeps -/

/-- What a call has read of the attributes is what they are, but for what was written since. -/
def ReadsAgree (w : World) (l : daoCalls.Log) : Prop :=
  ∀ u read, noting.after l u = some read → ∀ key,
    (∀ op ∈ sinceReading u l, op.names key = false) →
      w.row.attribute key = (read.getD []).lookup key

/-- **A careful write leaves the keys it does not name.** -/
theorem attribute_careful (h : ReadsAgree w l) (ha : noting.allows (noting.after l u) o)
    (hw : respond w o γ = some (r, w')) (hc : careful w l u o r) {key : String}
    (hk : ∀ op, written (.act u o r) = some op → op.names key = false) :
    w'.row.attribute key = w.row.attribute key := by
  rcases written_respond (u := u) hw with ⟨-, hrow⟩ | ⟨op, now, hop, hrun⟩
  · rw [hrow]
  · have hcop := hc op hop
    refine (DaoOp.attribute_frame_iff hrun).mpr (fun hl key hn => ?_) key (hk op hop)
    cases op with
    | noteAttribute read attributes =>
        obtain ⟨also, he⟩ := written_eq_some hop
        cases he
        -- a key that was written since it read would be one it names
        refine h u read ha key fun op' hop' => Bool.eq_false_iff.mpr fun hn' => ?_
        exact Bool.eq_false_iff.mp hn (hcop op' hop' key hn')
    | _ => exact hcop hl key hn

theorem isReading_act {v : ℕ} (h : isReading v (.act u o r) = true) :
    ∃ read, (.act u o r : Event effects Exn DaoOp) = .act v .readAttributes (.ok read) := by
  unfold isReading at h
  split at h
  · rename_i he
    cases he
    cases of_decide_eq_true h
    exact ⟨_, rfl⟩
  · cases h

/-- A reading is of the row. -/
theorem reading_respond {read : Option (Option Json.Fields)}
    (h : respond w .readAttributes γ = some (.ok read, w')) :
    read = some w.row.attributes ∧ w'.row = w.row := by
  have hr := respond_eq_some h
  obtain ⟨time, answer⟩ := γ
  cases answer with
  | done =>
      obtain ⟨hread, hrow⟩ := Prod.mk.inj (Option.some.inj hr)
      exact ⟨(Except.ok.inj hread).symm, hrow.symm⟩
  | fail message => cases (Prod.mk.inj (Option.some.inj hr)).1
  | _ => cases hr

theorem sinceReading_cons {e : Event effects Exn DaoOp} (h : isReading u e = false) :
    sinceReading u (e :: l) = (written e).toList ++ sinceReading u l := by
  rw [sinceReading, h]
  rfl

/-- The reading of another call, or none, is what it was. -/
theorem after_noting {v : ℕ} (hne : isReading v (.act u o r) = false) :
    noting.after (.act u o r :: l) v = noting.after l v := by
  by_cases hv : v = u
  · subst hv
    refine (if_pos rfl).trans ?_
    cases o with
    | readAttributes =>
        cases r with
        | error x => rfl
        | ok a => simp [isReading] at hne
    | _ => rfl
  · exact if_neg hv

theorem readsAgree_run {w : World} {c : Config daoCalls} (h : Run careful (daoCalls.initial w) c) :
    ReadsAgree c.world c.log := by
  refine Run.invariant (M := daoCalls) (P := noting) ReadsAgree follows_noting (Keeps.initial w)
    ?_ ?_ ?_ ?_ h
  · intro u read hread
    cases hread
  · intro w l t κ ht h u read hread key hk
    by_cases hu : u = t
    · exact absurd ((if_pos hu).symm.trans hread) (by simp [noting])
    · exact h u read ((if_neg hu).symm.trans hread) key hk
  · intro w l t o γ r w' h ha hw hc u read hread key hk
    cases hr : isReading u (.act t o r) with
    | true =>
        -- it reads the row as it is
        obtain ⟨read', he⟩ := isReading_act hr
        cases he
        obtain ⟨rfl, hrow⟩ := reading_respond hw
        have hread' : w.row.attributes = read := Option.some.inj ((if_pos rfl).symm.trans hread)
        rw [← hread', ← hrow]
        rfl
    | false =>
        rw [after_noting hr] at hread
        rw [sinceReading_cons hr] at hk
        rw [attribute_careful h ha hw hc fun op hop => hk op (by simp [hop])]
        exact h u read hread key fun op hop => hk op (List.mem_append_right _ hop)
  · intro w l t h u read hread key hk
    by_cases hu : u = t
    · exact absurd ((if_pos hu).symm.trans hread) (by simp [noting])
    · exact h u read ((if_neg hu).symm.trans hread) key hk

/-- **In a careful run a key of the attributes keeps its value until a write names it.** -/
theorem attribute_kept {w : World} {c c' : Config daoCalls}
    (h : Run careful (daoCalls.initial w) c) (h' : Run careful c c') {new : daoCalls.Log}
    (hnew : c'.log = new ++ c.log) {key : String} (hk : ∀ e ∈ new, writesKey key e = false) :
    c'.world.row.attribute key = c.world.row.attribute key := by
  induction h' generalizing new with
  | refl => rfl
  | @more c₁ c₂ r s ih =>
      obtain ⟨before, hbefore⟩ := r.log
      obtain ⟨e, he⟩ := s.event
      -- the induction is on the second run, whose last event is the newest
      have hcons : new = e :: before := by
        rw [he, hbefore, ← List.cons_append] at hnew
        exact (List.append_cancel_right hnew).symm
      rw [hcons] at hk
      have hlast := hk e List.mem_cons_self
      rw [← ih hbefore fun e' h' => hk e' (List.mem_cons_of_mem _ h')]
      have hrun := h.trans r
      have hkeeps : Keeps noting c₁ := (Keeps.initial (M := daoCalls) w).run follows_noting hrun
      cases s with
      | spawn κ => rfl
      | act hp hw hc =>
          cases he
          refine attribute_careful (readsAgree_run hrun) (hkeeps.allows hp) hw hc fun op hop => ?_
          simpa [writesKey, hop] using hlast
      | halt hp => rfl

/-! ### Runs that lose a key -/

/-- In a run from the row, a key is lost though no write names it. -/
def Loses (row : AsyncTask) (key : String) : Prop :=
  ∃ c c' : Config daoCalls, Run daoCalls.anything (daoCalls.initial ⟨row, 0⟩) c ∧
    Run daoCalls.anything c c' ∧
    (∃ new, c'.log = new ++ c.log ∧ ∀ e ∈ new, writesKey key e = false) ∧
    (c.world.row.attribute key).isSome = true ∧ (c'.world.row.attribute key).isNone = true

theorem loses_of_exec {row : AsyncTask} {key : String} (before after : List (Move daoCalls))
    (h : (((daoCalls.initial ⟨row, 0⟩).exec (fun _ _ _ _ _ => true) before).any fun c =>
      (c.exec (fun _ _ _ _ _ => true) after).any fun c' =>
        (c'.log.take (c'.log.length - c.log.length)).all (fun e => !writesKey key e) &&
          ((c.world.row.attribute key).isSome && (c'.world.row.attribute key).isNone)) = true) :
    Loses row key := by
  obtain ⟨c, run, h⟩ := Run.of_any_exec (fun _ _ _ _ _ _ => trivial) h
  obtain ⟨c', run', h⟩ := Run.of_any_exec (fun _ _ _ _ _ _ => trivial) h
  obtain ⟨hall, hlost⟩ := Bool.and_eq_true_iff.mp h
  refine ⟨c, c', run, run', ⟨_, run'.log_take, ?_⟩, Bool.and_eq_true_iff.mp hlost⟩
  intro e he
  simpa using List.all_eq_true.mp hall e he

/-- The create call was lost, and a confirmation finds the task: its note replaces the reference to
the archived answer.  And a second `note_attribute` that read before the first one wrote drops the
key of the first. -/
theorem attributes_lost :
    Loses acceptedRow refAttribute ∧ Loses acceptedRow "deadline_extended_seconds" := by
  refine ⟨loses_of_exec
    [.spawn (.markSubmitIntent none), .act 0 ⟨0, .done⟩,
      .spawn (.enterUnknown .timeout none none), .act 1 ⟨0, .done⟩]
    [.spawn (.relocateCompensate (some "upstream") upstreamSubmitted none none (some 1)
      (some "found")), .act 2 ⟨0, .done⟩] (by decide +kernel), loses_of_exec
    [.spawn (.noteAttribute none [("deadline_extended_seconds", .int 60)]),
      .spawn (.noteAttribute none [("channel_fault", .bool true)]), .act 0 ⟨0, .done⟩,
      .act 1 ⟨0, .done⟩, .act 0 ⟨0, .done⟩]
    [.act 1 ⟨0, .done⟩] (by decide +kernel)⟩

/-- A check that a run is careful: nothing replaces the attributes, and nothing was written since a
`note_attribute` read. -/
def plainlyCareful : daoCalls.Check := fun _ l u o r =>
  match written (.act u o r) with
  | some (.noteAttribute _ _) => (sinceReading u l).isEmpty
  | some op => op.replaced.isNone
  | none => true

theorem careful_of_plainly {w : World} {l : daoCalls.Log} {u : ℕ} {o : Op} {r : Except Exn o.Ans}
    (h : plainlyCareful w l u o r = true) : careful w l u o r := by
  intro op hop
  unfold plainlyCareful at h
  rw [hop] at h
  cases op with
  | noteAttribute read attributes =>
      intro op' hop'
      rw [List.isEmpty_iff.mp h] at hop'
      cases hop'
  | _ => exact fun hr => absurd (Option.isNone_iff_eq_none.mp h) hr

/-- A note is written beside the reference to the archived answer. -/
theorem attribute_kept_sample :
    ∃ c c' : Config daoCalls, Run careful (daoCalls.initial ⟨acceptedRow, 0⟩) c ∧
      Run careful c c' ∧ (c'.world.row.attribute "channel_fault").isSome = true ∧
      c'.world.row.attribute refAttribute = c.world.row.attribute refAttribute := by
  have h : (((daoCalls.initial ⟨acceptedRow, 0⟩).exec plainlyCareful
      [.spawn (.markSubmitIntent none), .act 0 ⟨0, .done⟩]).any fun c =>
        (c.exec plainlyCareful
          [.spawn (.noteAttribute none [("channel_fault", .bool true)]), .act 1 ⟨0, .done⟩,
            .act 1 ⟨0, .done⟩]).any fun c' =>
          (c'.log.take (c'.log.length - c.log.length)).all
              (fun e => !writesKey refAttribute e) &&
            (c'.world.row.attribute "channel_fault").isSome) = true := by decide +kernel
  obtain ⟨c, run, h⟩ := Run.of_any_exec (fun _ _ _ _ _ => careful_of_plainly) h
  obtain ⟨c', run', h⟩ := Run.of_any_exec (fun _ _ _ _ _ => careful_of_plainly) h
  obtain ⟨hall, hnoted⟩ := Bool.and_eq_true_iff.mp h
  refine ⟨c, c', run, run', hnoted, attribute_kept run run' run'.log_take ?_⟩
  intro e he
  simpa using List.all_eq_true.mp hall e he

end AsyncGateway
