import Mathlib.Data.List.Nodup
import Mathlib.Data.List.Perm.Subperm
import Mathlib.Tactic.Tauto
import Mathlib.Data.Rat.Defs
import Mathlib.Algebra.Order.Ring.Unbundled.Rat
import Mathlib.Data.Nat.Notation

/-!
# Library — streams with a consumer group

A stream keeps its entries in the order of their ids until it is trimmed.  A group reads it from the
start: what was read and not acknowledged is pending, with the consumer that has it, since when, and
how often it was handed out.  An acknowledgement takes an entry off the pending ones and leaves the
stream alone; `autoclaim` hands out pending entries again that nobody moved for a while.

An entry is *outstanding* while it is undelivered or pending.  The outstanding entries are entries
of the stream as long as nothing is trimmed (`Whole`), and the others are the acknowledged ones,
which the stream still holds.
-/

namespace Interleave

structure StreamEntry (β : Type) where
  id : ℕ
  body : β

/-- An entry that was handed out and not acknowledged. -/
structure Delivery where
  id : ℕ
  consumer : String
  since : ℚ
  /-- How often it was handed out. -/
  count : ℕ
  deriving DecidableEq

structure GroupStream (β : Type) where
  entries : List (StreamEntry β) := []
  nextId : ℕ := 1
  /-- The id of the last entry the group read. -/
  lastDelivered : ℕ := 0
  /-- By their ids. -/
  pending : List Delivery := []

namespace GroupStream

variable {β : Type}

/-- Append, then trim to `maxlen` entries or somewhat more: an approximate trim leaves up to
`surplus` of them.  The id of the entry, and the stream. -/
def add (s : GroupStream β) (body : β) (maxlen surplus : ℕ) : ℕ × GroupStream β :=
  let entries := s.entries ++ [⟨s.nextId, body⟩]
  (s.nextId, { s with entries := entries.drop (entries.length - maxlen - surplus),
                      nextId := s.nextId + 1 })

/-- The entries the group has not read yet. -/
def undelivered (s : GroupStream β) : List (StreamEntry β) :=
  s.entries.filter fun e => s.lastDelivered < e.id

/-- The next entries the group has not read, at most `count` where that is not zero. -/
def batch (s : GroupStream β) (count : ℕ) : List (StreamEntry β) :=
  s.undelivered.take (if count = 0 then s.undelivered.length else count)

/-- Hand out new entries to a consumer. -/
def read (s : GroupStream β) (consumer : String) (count : ℕ) (now : ℚ) :
    List (StreamEntry β) × GroupStream β :=
  let batch := s.batch count
  (batch, { s with lastDelivered := (batch.getLast?.map (·.id)).getD s.lastDelivered,
                   pending := s.pending ++ batch.map fun e => ⟨e.id, consumer, now, 1⟩ })

/-- Acknowledge an entry: whether it was pending, and the stream. -/
def ack (s : GroupStream β) (id : ℕ) : ℕ × GroupStream β :=
  ((s.pending.filter (·.id = id)).length,
    { s with pending := s.pending.filter (·.id ≠ id) })

/-- What `autoclaim` finds among pending entries: those it claims, those whose entry is gone, and
where to go on. -/
def scan (s : GroupStream β) (minIdle now : ℚ) :
    ℕ → ℕ → List Delivery → List ℕ × List ℕ × Option ℕ
  | _, _, [] => ([], [], none)
  | 0, _, p :: _ => ([], [], some p.id)
  | _, 0, p :: _ => ([], [], some p.id)
  | attempts + 1, count + 1, p :: ps =>
      if p.id ∉ s.entries.map (·.id) then
        let (claimed, deleted, next) := s.scan minIdle now attempts count ps
        (claimed, p.id :: deleted, next)
      else if now - p.since < minIdle then s.scan minIdle now attempts (count + 1) ps
      else
        let (claimed, deleted, next) := s.scan minIdle now attempts count ps
        (p.id :: claimed, deleted, next)

/-- Hand out pending entries again, from the id `start` on: where to go on (`0` at the end), the
entries, and the stream. -/
def autoclaim (s : GroupStream β) (consumer : String) (minIdle : ℚ) (start count : ℕ) (now : ℚ) :
    ℕ × List (StreamEntry β) × GroupStream β :=
  let (claimed, deleted, next) :=
    s.scan minIdle now (10 * count) count (s.pending.filter (start ≤ ·.id))
  (next.getD 0, s.entries.filter (·.id ∈ claimed),
    { s with pending := (s.pending.filter (·.id ∉ deleted)).map fun p =>
        if p.id ∈ claimed then { p with consumer := consumer, since := now, count := p.count + 1 }
        else p })

/-- The ids of the entries that are undelivered or pending. -/
def outstanding (s : GroupStream β) : List ℕ :=
  s.undelivered.map (·.id) ++ s.pending.map (·.id)

/-- The ids are in order, and the group has read an initial part of the stream. -/
structure Sound (s : GroupStream β) : Prop where
  ascending : (s.entries.map (·.id)).Pairwise (· < ·)
  bound : ∀ id ∈ s.entries.map (·.id), id < s.nextId
  delivered_lt : s.lastDelivered < s.nextId
  pending_ascending : (s.pending.map (·.id)).Pairwise (· < ·)
  pending_le : ∀ id ∈ s.pending.map (·.id), id ≤ s.lastDelivered

/-! ### What the operations keep -/

variable {s : GroupStream β}

/-- How far a group has read after a batch. -/
def lastAfter (s : GroupStream β) (count : ℕ) : ℕ :=
  (((s.batch count).getLast?).map (·.id)).getD s.lastDelivered

/-- The entries after a batch. -/
def rest (s : GroupStream β) (count : ℕ) : List (StreamEntry β) :=
  s.undelivered.drop (if count = 0 then s.undelivered.length else count)

theorem batch_append_rest (s : GroupStream β) (count : ℕ) :
    s.batch count ++ s.rest count = s.undelivered := List.take_append_drop _ _

theorem lt_of_mem_undelivered {e : StreamEntry β} (he : e ∈ s.undelivered) :
    s.lastDelivered < e.id := by
  simpa using (List.mem_filter.mp he).2

theorem lt_of_mem_batch {count : ℕ} {e : StreamEntry β} (he : e ∈ s.batch count) :
    s.lastDelivered < e.id := lt_of_mem_undelivered (List.mem_of_mem_take he)

/-- A batch goes up to where the group has read after it, and the rest beyond. -/
theorem Sound.batch_le (h : s.Sound) (count : ℕ) :
    s.lastDelivered ≤ s.lastAfter count ∧ (∀ e ∈ s.batch count, e.id ≤ s.lastAfter count) ∧
      ∀ e ∈ s.rest count, s.lastAfter count < e.id := by
  have hu : (s.undelivered.map (·.id)).Pairwise (· < ·) :=
    h.ascending.sublist (List.filter_sublist.map _)
  rw [← s.batch_append_rest count, List.map_append, List.pairwise_append] at hu
  obtain ⟨hbatch, -, hcross⟩ := hu
  rcases List.eq_nil_or_concat (s.batch count) with hn | ⟨es, e, hn⟩
  · have hl : s.lastAfter count = s.lastDelivered := by simp [lastAfter, hn]
    rw [hl, hn]
    exact ⟨le_rfl, fun _ he => absurd he List.not_mem_nil, fun e he =>
      lt_of_mem_undelivered (List.mem_of_mem_drop he)⟩
  · rw [List.concat_eq_append] at hn
    have hl : s.lastAfter count = e.id := by simp [lastAfter, hn]
    rw [hl]
    have he : e ∈ s.batch count := by simp [hn]
    refine ⟨(lt_of_mem_batch he).le, fun x hx => ?_, fun x hx => ?_⟩
    · rw [hn] at hx hbatch
      rcases List.mem_append.mp hx with hx | hx
      · rw [List.map_append, List.pairwise_append] at hbatch
        exact (hbatch.2.2 x.id (List.mem_map_of_mem hx) e.id (by simp)).le
      · rw [List.mem_singleton.mp hx]
    · exact hcross e.id (by simp [hn]) x.id (List.mem_map_of_mem hx)

/-- What is undelivered after a read. -/
theorem Sound.undelivered_read (h : s.Sound) (consumer : String) (count : ℕ) (now : ℚ) :
    (s.read consumer count now).2.undelivered = s.rest count := by
  obtain ⟨hle, hbatch, hrest⟩ := h.batch_le count
  have hf : (s.read consumer count now).2.undelivered =
      s.undelivered.filter fun e => s.lastAfter count < e.id := by
    change (s.entries.filter fun e => s.lastAfter count < e.id) = _
    rw [undelivered, List.filter_filter]
    refine List.filter_congr fun e _ => ?_
    by_cases hlt : s.lastAfter count < e.id
    · simp [hlt, hle.trans_lt hlt]
    · simp [hlt]
  have hnil : (s.batch count).filter (fun e => s.lastAfter count < e.id) = [] :=
    List.filter_eq_nil_iff.mpr fun e he => by simpa using hbatch e he
  have hself : (s.rest count).filter (fun e => s.lastAfter count < e.id) = s.rest count :=
    List.filter_eq_self.mpr fun e he => by simpa using hrest e he
  rw [hf, ← s.batch_append_rest count, List.filter_append, hnil, hself, List.nil_append]

theorem Sound.empty : Sound ({} : GroupStream β) :=
  ⟨.nil, fun _ h => absurd h List.not_mem_nil, Nat.zero_lt_one, .nil,
    fun _ h => absurd h List.not_mem_nil⟩

theorem Sound.add (h : s.Sound) (body : β) (maxlen surplus : ℕ) :
    (s.add body maxlen surplus).2.Sound := by
  have hids :
      ((s.entries ++ [(⟨s.nextId, body⟩ : StreamEntry β)]).map (·.id)).Pairwise (· < ·) := by
    rw [List.map_append, List.pairwise_append]
    exact ⟨h.ascending, List.pairwise_singleton _ _, fun a ha b hb =>
      List.mem_singleton.mp hb ▸ h.bound a ha⟩
  refine ⟨hids.sublist ((List.drop_sublist _ _).map _), fun id hid => ?_,
    h.delivered_lt.trans (Nat.lt_succ_self _), h.pending_ascending, h.pending_le⟩
  have hid' := ((List.drop_sublist _ _).map _).subset hid
  rw [List.map_append, List.mem_append] at hid'
  rcases hid' with hid' | hid'
  · exact (h.bound id hid').trans (Nat.lt_succ_self _)
  · exact List.mem_singleton.mp hid' ▸ Nat.lt_succ_self _

theorem Sound.read (h : s.Sound) (consumer : String) (count : ℕ) (now : ℚ) :
    (s.read consumer count now).2.Sound := by
  obtain ⟨hle, hbatch, -⟩ := h.batch_le count
  have hsub : (s.batch count).Sublist s.entries :=
    (List.take_sublist _ _).trans List.filter_sublist
  have hids : ((s.read consumer count now).2.pending.map (·.id)) =
      s.pending.map (·.id) ++ (s.batch count).map (·.id) := by
    simp [GroupStream.read, Function.comp_def]
  refine ⟨h.ascending, h.bound, ?_, ?_, fun id hid => ?_⟩
  · change s.lastAfter count < s.nextId
    rcases hn : (s.batch count).getLast? with _ | e
    · simpa [lastAfter, hn] using h.delivered_lt
    · have he := hsub.subset (List.mem_of_getLast? hn)
      simpa [lastAfter, hn] using h.bound e.id (List.mem_map_of_mem he)
  · rw [hids, List.pairwise_append]
    refine ⟨h.pending_ascending, h.ascending.sublist (hsub.map _), fun a ha b hb => ?_⟩
    obtain ⟨e, he, rfl⟩ := List.mem_map.mp hb
    exact (h.pending_le a ha).trans_lt (lt_of_mem_batch he)
  · rw [hids, List.mem_append] at hid
    rcases hid with hid | hid
    · exact (h.pending_le id hid).trans hle
    · obtain ⟨e, he, rfl⟩ := List.mem_map.mp hid
      exact hbatch e he

theorem Sound.ack (h : s.Sound) (id : ℕ) : (s.ack id).2.Sound :=
  ⟨h.ascending, h.bound, h.delivered_lt,
    h.pending_ascending.sublist (List.filter_sublist.map _),
    fun i hi => h.pending_le i ((List.filter_sublist.map _).subset hi)⟩

/-- The ids of what is pending after an `autoclaim`. -/
theorem autoclaim_pending (s : GroupStream β) (consumer : String) (minIdle : ℚ)
    (start count : ℕ) (now : ℚ) :
    ((s.autoclaim consumer minIdle start count now).2.2.pending.map (·.id)).Sublist
      (s.pending.map (·.id)) := by
  have hmap : ∀ (claimed : List ℕ) (ps : List Delivery),
      (ps.map fun p => if p.id ∈ claimed then
        { p with consumer := consumer, since := now, count := p.count + 1 } else p).map (·.id) =
      ps.map (·.id) := by
    intro claimed ps
    rw [List.map_map]
    refine List.map_congr_left fun p _ => ?_
    simp only [Function.comp]
    split <;> rfl
  simp only [autoclaim, hmap]
  exact List.filter_sublist.map _

/-- The ids `autoclaim` claims. -/
def claimedIds (s : GroupStream β) (minIdle : ℚ) (start count : ℕ) (now : ℚ) : List ℕ :=
  (s.scan minIdle now (10 * count) count (s.pending.filter (start ≤ ·.id))).1

theorem autoclaim_entries (s : GroupStream β) (consumer : String) (minIdle : ℚ)
    (start count : ℕ) (now : ℚ) : (s.autoclaim consumer minIdle start count now).2.1 =
      s.entries.filter (·.id ∈ s.claimedIds minIdle start count now) := rfl

/-- What is pending after an `autoclaim` was pending before it, and was handed out once more where
it was claimed. -/
theorem mem_autoclaim_pending {consumer : String} {minIdle now : ℚ} {start count : ℕ}
    {q : Delivery} (h : q ∈ (s.autoclaim consumer minIdle start count now).2.2.pending) :
    ∃ p ∈ s.pending, q.id = p.id ∧
      q.count = if p.id ∈ s.claimedIds minIdle start count now then p.count + 1 else p.count := by
  obtain ⟨p, hp, rfl⟩ := List.mem_map.mp h
  refine ⟨p, List.mem_of_mem_filter hp, ?_⟩
  change (if p.id ∈ s.claimedIds minIdle start count now then _ else p : Delivery).id = p.id ∧
    (if p.id ∈ s.claimedIds minIdle start count now then _ else p : Delivery).count = _
  split <;> exact ⟨rfl, rfl⟩

theorem Sound.autoclaim (h : s.Sound) (consumer : String) (minIdle : ℚ) (start count : ℕ)
    (now : ℚ) : (s.autoclaim consumer minIdle start count now).2.2.Sound :=
  have hsub := s.autoclaim_pending consumer minIdle start count now
  ⟨h.ascending, h.bound, h.delivered_lt, h.pending_ascending.sublist hsub,
    fun i hi => h.pending_le i (hsub.subset hi)⟩

/-! ### The outstanding entries -/

theorem mem_outstanding {id : ℕ} :
    id ∈ s.outstanding ↔ id ∈ s.undelivered.map (·.id) ∨ id ∈ s.pending.map (·.id) :=
  List.mem_append

theorem Sound.outstanding_nodup (h : s.Sound) : s.outstanding.Nodup := by
  rw [outstanding, List.nodup_append]
  refine ⟨(h.ascending.sublist (List.filter_sublist.map _)).imp Nat.ne_of_lt,
    h.pending_ascending.imp Nat.ne_of_lt, fun a ha b hb => ?_⟩
  obtain ⟨e, he, rfl⟩ := List.mem_map.mp ha
  have hlt : s.lastDelivered < e.id := by simpa using (List.mem_filter.mp he).2
  exact ((h.pending_le b hb).trans_lt hlt).ne'

/-- The outstanding entries are all there. -/
def Whole (s : GroupStream β) : Prop := ∀ id ∈ s.outstanding, id ∈ s.entries.map (·.id)

theorem Whole.empty : Whole ({} : GroupStream β) := fun _ h => absurd h List.not_mem_nil

/-- An append that trims nothing. -/
theorem add_of_le {body : β} {maxlen : ℕ} (hl : s.entries.length < maxlen) (surplus : ℕ) :
    (s.add body maxlen surplus).2 =
      { s with entries := s.entries ++ [⟨s.nextId, body⟩], nextId := s.nextId + 1 } := by
  have hz : (s.entries ++ [(⟨s.nextId, body⟩ : StreamEntry β)]).length - maxlen - surplus = 0 := by
    simp only [List.length_append, List.length_singleton]
    omega
  simp only [add, hz, List.drop_zero]

theorem Whole.add (hw : s.Whole) {body : β} {maxlen : ℕ} (hl : s.entries.length < maxlen)
    (surplus : ℕ) : (s.add body maxlen surplus).2.Whole := by
  rw [add_of_le hl]
  intro id hid
  rw [List.map_append, List.mem_append]
  rcases mem_outstanding.mp hid with hid | hid
  · rw [undelivered, List.filter_append, List.map_append, List.mem_append] at hid
    rcases hid with hid | hid
    · exact .inl (hw id (mem_outstanding.mpr (.inl hid)))
    · exact .inr ((List.filter_sublist.map _).subset hid)
  · exact .inl (hw id (mem_outstanding.mpr (.inr hid)))

/-- A read delivers what it hands out: nothing becomes outstanding, or stops being so. -/
theorem Sound.mem_outstanding_read (h : s.Sound) {consumer : String} {count : ℕ} {now : ℚ}
    {id : ℕ} : id ∈ (s.read consumer count now).2.outstanding ↔ id ∈ s.outstanding := by
  rw [mem_outstanding, mem_outstanding, h.undelivered_read, ← s.batch_append_rest count]
  simp only [GroupStream.read, List.map_append, List.mem_append, List.map_map, Function.comp_def]
  tauto

theorem Whole.read (hw : s.Whole) (h : s.Sound) (consumer : String) (count : ℕ) (now : ℚ) :
    (s.read consumer count now).2.Whole := fun id hid =>
  hw id (h.mem_outstanding_read.mp hid)

theorem Whole.ack (hw : s.Whole) (id : ℕ) : (s.ack id).2.Whole := fun i hi =>
  hw i (mem_outstanding.mpr ((mem_outstanding.mp hi).imp_right fun hp =>
    (List.filter_sublist.map _).subset hp))

/-- As many outstanding entries as entries: then no entry was acknowledged. -/
theorem Sound.length_le_outstanding_iff (h : s.Sound) (hw : s.Whole) :
    s.entries.length ≤ s.outstanding.length ↔ ∀ e ∈ s.entries, e.id ∈ s.outstanding := by
  have hsub : s.outstanding.Subperm (s.entries.map (·.id)) :=
    h.outstanding_nodup.subperm hw
  constructor
  · intro hl e he
    have hperm := hsub.perm_of_length_le (by simpa using hl)
    exact hperm.mem_iff.mpr (List.mem_map_of_mem he)
  · intro hm
    have hnodup : (s.entries.map (·.id)).Nodup := h.ascending.imp Nat.ne_of_lt
    have hsub' : (s.entries.map (·.id)).Subperm s.outstanding := hnodup.subperm fun id hid => by
      obtain ⟨e, he, rfl⟩ := List.mem_map.mp hid
      exact hm e he
    simpa using hsub'.length_le

/-! ### What stays outstanding -/

/-- What `autoclaim` drops from the pending ones is no entry any more. -/
theorem mem_deleted {minIdle now : ℚ} {attempts count id : ℕ} {ps : List Delivery}
    (h : id ∈ (s.scan minIdle now attempts count ps).2.1) : id ∉ s.entries.map (·.id) := by
  induction ps generalizing attempts count with
  | nil => simp [scan] at h
  | cons p ps ih =>
      cases attempts with
      | zero => simp [scan] at h
      | succ attempts =>
          cases count with
          | zero => simp [scan] at h
          | succ count =>
              simp only [scan] at h
              split at h
              next hgone =>
                rcases List.mem_cons.mp h with rfl | h
                · exact hgone
                · exact ih h
              next =>
                split at h
                · exact ih h
                · exact ih h

/-- An entry that is outstanding stays so through a claim. -/
theorem mem_outstanding_autoclaim {consumer : String} {minIdle now : ℚ} {start count id : ℕ}
    (he : id ∈ s.entries.map (·.id)) (h : id ∈ s.outstanding) :
    id ∈ (s.autoclaim consumer minIdle start count now).2.2.outstanding := by
  rcases mem_outstanding.mp h with h | h
  · exact mem_outstanding.mpr (.inl h)
  · refine mem_outstanding.mpr (.inr ?_)
    obtain ⟨p, hp, rfl⟩ := List.mem_map.mp h
    refine List.mem_map.mpr ⟨_, List.mem_map_of_mem (List.mem_filter.mpr
      ⟨hp, decide_eq_true fun hdel => mem_deleted hdel he⟩), ?_⟩
    change (if p.id ∈ s.claimedIds minIdle start count now then _ else p : Delivery).id = p.id
    split <;> rfl

/-- An acknowledgement takes one entry off, and no other. -/
theorem mem_outstanding_ack {id id' : ℕ} (hne : id ≠ id') (h : id ∈ s.outstanding) :
    id ∈ (s.ack id').2.outstanding := by
  refine mem_outstanding.mpr ((mem_outstanding.mp h).imp_right fun hpending => ?_)
  obtain ⟨p, hp, rfl⟩ := List.mem_map.mp hpending
  exact List.mem_map_of_mem (List.mem_filter.mpr ⟨hp, by simpa using hne⟩)

/-- What an append leaves in the stream was there, or is new and undelivered. -/
theorem Sound.mem_add (h : s.Sound) {body : β} {maxlen surplus : ℕ} {e : StreamEntry β}
    (he : e ∈ (s.add body maxlen surplus).2.entries) :
    e ∈ s.entries ∨ e.id ∈ (s.add body maxlen surplus).2.outstanding := by
  rcases List.mem_append.mp (List.mem_of_mem_drop he) with hold | hnew
  · exact .inl hold
  · refine .inr (mem_outstanding.mpr (.inl (List.mem_map_of_mem (List.mem_filter.mpr ⟨he, ?_⟩))))
    rw [List.mem_singleton.mp hnew]
    exact decide_eq_true h.delivered_lt

/-- An entry that an append leaves in the stream stays outstanding. -/
theorem mem_outstanding_add {body : β} {maxlen surplus id : ℕ}
    (he : id ∈ (s.add body maxlen surplus).2.entries.map (·.id)) (h : id ∈ s.outstanding) :
    id ∈ (s.add body maxlen surplus).2.outstanding := by
  refine mem_outstanding.mpr ((mem_outstanding.mp h).imp_left fun hu => ?_)
  obtain ⟨e, hmem, hid⟩ := List.mem_map.mp he
  obtain ⟨e', hmem', hid'⟩ := List.mem_map.mp hu
  refine List.mem_map.mpr ⟨e, List.mem_filter.mpr ⟨hmem, ?_⟩, hid⟩
  rw [hid, ← hid']
  exact decide_eq_true (lt_of_mem_undelivered (s := s) hmem')

end GroupStream

end Interleave
