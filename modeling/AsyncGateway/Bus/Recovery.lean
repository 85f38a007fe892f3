import AsyncGateway.Bus.Stream
import AsyncGateway.Lib.StreamPages

/-!
# Bus — the recovery of pending messages

`claim_stale` goes through the pending entries of a queue page by page, until the cursor is at its
end or a page has nothing to claim.  Alone on the stream it returns the stale entries of the pages
up to the first without one (`run_claimFrom`), so it recovers every stale entry exactly where no
such page comes before a stale entry (`claimFrom_recovers_iff`).
-/

namespace AsyncGateway

open Interleave (Prog GroupStream StreamEntry)

namespace StreamBus

variable {B : StreamBus} {γ : BusChoice} {S : Streams} {queue consumer : String}
variable {minIdle : Seconds} {count : ℕ}

/-- An entry that holds a message: it has fields, and its payload is JSON. -/
def Holds (B : StreamBus) (raw : Raw) : Prop :=
  raw ≠ [] ∧
    (B.codec.loads (((raw.lookup "payload").filter (· ≠ "")).getD "\x7b\x7d")).isSome = true

/-- What the bus writes holds a message. -/
theorem holds_encode
    (h : ∀ payload, B.codec.dumps payload ≠ "" ∧
      (B.codec.loads (B.codec.dumps payload)).isSome = true) (m : BusMessage) :
    B.Holds (m.encode B.codec) := by
  refine ⟨List.cons_ne_nil _ _, ?_⟩
  have hlookup : (m.encode B.codec).lookup "payload" = some (B.codec.dumps m.payload) := rfl
  rw [hlookup, Option.filter_some, if_pos (by simpa using (h m.payload).1)]
  exact (h m.payload).2

/-! ### Reading the entries -/

theorem run_decode (name : String) {raw : Raw} (id : ℕ) (h : B.Holds raw) :
    ∃ m, (BusMessage.decode B.codec name raw id).run (Streams.serve γ) S = (.ok m, S) ∧
      m.messageId = id := by
  obtain ⟨payload, hpayload⟩ := Option.isSome_iff_exists.mp h.2
  have hload : BusMessage.loadPayload B.codec raw = .pure payload := by
    unfold BusMessage.loadPayload
    rw [hpayload]
    rfl
  obtain ⟨t, ht⟩ : ∃ t, (BusMessage.loadEnqueuedAt B.codec raw).run (Streams.serve γ) S =
      (.ok t, S) := by
    unfold BusMessage.loadEnqueuedAt
    split
    · exact ⟨_, rfl⟩
    · exact ⟨γ.now, Prog.run_perform _ _ _⟩
  refine ⟨⟨name, payload, id, t, 1⟩, ?_, rfl⟩
  simp only [BusMessage.decode, hload, Prog.bind_eq, Prog.run_bind, ht, Prog.run, Prog.pure_eq]

/-- The messages of entries that hold some. -/
theorem run_decodeAll {entries : List (StreamEntry Raw)} (h : ∀ e ∈ entries, B.Holds e.body) :
    ∃ messages, (B.decodeAll entries).run (Streams.serve γ) S = (.ok messages, S) ∧
      messages.map (·.messageId) = entries.map (·.id) := by
  induction entries with
  | nil => exact ⟨[], rfl, rfl⟩
  | cons e entries ih =>
      obtain ⟨m, hm, hid⟩ := run_decode (γ := γ) (S := S)
        ((e.body.lookup "name").getD "") e.id (h e List.mem_cons_self)
      obtain ⟨messages, hmessages, hids⟩ := ih fun e he => h e (List.mem_cons_of_mem _ he)
      refine ⟨m :: messages, ?_, by simp [hid, hids]⟩
      simp only [decodeAll, Prog.bind_eq, Prog.run_bind, hm, hmessages, Prog.run, Prog.pure_eq]

/-! ### The loop -/

/-- One turn of the loop: what the call hands out, and whether it goes on. -/
theorem run_claimFrom_succ (fuel : ℕ) {cursor next : ℕ} {entries : List (StreamEntry Raw)}
    {s' : GroupStream Raw}
    (h : (S (B.stream queue)).autoclaim consumer minIdle cursor count γ.now = (next, entries, s'))
    (hholds : ∀ e ∈ entries, B.Holds e.body) :
    ∃ claimed : List BusMessage, claimed.map (·.messageId) = entries.map (·.id) ∧
      (B.claimFrom queue consumer minIdle count (fuel + 1) cursor).run (Streams.serve γ) S =
        (if next = 0 ∨ entries = [] then Prog.pure claimed
          else (B.claimFrom queue consumer minIdle count fuel next).bind
            fun more => .pure (claimed ++ more)).run (Streams.serve γ)
          (Function.update S (B.stream queue) s') := by
  obtain ⟨claimed, hclaimed, hids⟩ := run_decodeAll (γ := γ)
    (S := Function.update S (B.stream queue) s') hholds
  have hall : (entries.filter fun e => e.body ≠ []) = entries :=
    List.filter_eq_self.mpr fun e he => by simpa using (hholds e he).1
  have hask : (askBus (.xautoclaim (B.stream queue) B.group consumer minIdle cursor count)).run
      (Streams.serve γ) S =
      (.ok (next, entries), Function.update S (B.stream queue) s') := by
    refine (Prog.run_perform _ _ _).trans ?_
    simp only [Streams.serve, h]
  refine ⟨claimed, hids, (Prog.run_bind _ (askBus _) _ S).trans ?_⟩
  rw [hask]
  refine (Prog.run_bind _ (B.decodeAll _) _ _).trans ?_
  rw [hall, hclaimed]
  rfl

/-- **What the loop returns**, from a cursor with `ps` behind it: the stale entries of the pages of
`ps`, up to the first page without one. -/
theorem run_claimFrom (consumer : String) (minIdle : Seconds) (hcount : 1 ≤ count)
    {fuel cursor : ℕ} {ps : List Interleave.Delivery}
    (hs : (S (B.stream queue)).Sound) (hpos : ∀ p ∈ (S (B.stream queue)).pending, 0 < p.id)
    (hholds : ∀ e ∈ (S (B.stream queue)).entries, B.Holds e.body)
    (hps : (S (B.stream queue)).pending.filter (cursor ≤ ·.id) = ps) (hfuel : ps.length < fuel) :
    ∃ messages S', (B.claimFrom queue consumer minIdle count fuel cursor).run (Streams.serve γ) S =
        (.ok messages, S') ∧
      messages.map (·.messageId) = ((S (B.stream queue)).staleOf minIdle γ.now
        ((S (B.stream queue)).reached minIdle γ.now
          ((S (B.stream queue)).pagesFrom minIdle γ.now count fuel ps)).flatten).map (·.id) := by
  induction fuel generalizing cursor ps S with
  | zero => exact absurd hfuel (Nat.not_lt_zero _)
  | succ fuel ih =>
      obtain ⟨next, entries, s', ha⟩ : ∃ next entries s', (S (B.stream queue)).autoclaim consumer
          minIdle cursor count γ.now = (next, entries, s') := ⟨_, _, _, rfl⟩
      have hpaged : (S (B.stream queue)).Paged minIdle γ.now
          (ps.take ((S (B.stream queue)).scanned minIdle γ.now (10 * count) count ps))
          (ps.drop ((S (B.stream queue)).scanned minIdle γ.now (10 * count) count ps))
          next entries s' := by
        have h := GroupStream.autoclaim_paged consumer minIdle count γ.now hs hps
        rwa [ha] at h
      obtain ⟨claimed, hclaimed, hrun⟩ := run_claimFrom_succ fuel ha
        fun e he => hholds e (hpaged.mem e he)
      rw [hrun]
      have hrest : ∀ p ∈ ps, 0 < p.id := fun p hp => hpos p (List.mem_of_mem_filter (hps ▸ hp))
      have hzero := hpaged.next_eq_zero fun p hp => hrest p (List.mem_of_mem_drop hp)
      cases ps with
      | nil =>
          rw [if_pos (.inl (hzero.mpr List.drop_nil))]
          exact ⟨claimed, _, rfl, hclaimed.trans (hpaged.ids.trans (by rw [List.take_nil]; rfl))⟩
      | cons p ps =>
          have hpos₁ := GroupStream.scanned_pos (S (B.stream queue)) minIdle γ.now hcount
            (List.cons_ne_nil p ps)
          rw [GroupStream.pagesFrom]
          generalize (S (B.stream queue)).scanned minIdle γ.now (10 * count) count (p :: ps) = n
            at hpaged hzero hpos₁
          have hlen : ((p :: ps).drop n).length < fuel := by
            rw [List.length_drop]
            rw [List.length_cons] at hfuel ⊢
            omega
          by_cases hnone : (S (B.stream queue)).staleOf minIdle γ.now ((p :: ps).take n) = []
          · -- a page without a stale entry: the loop stops
            have hempty : entries = [] := hpaged.entries_eq_nil.mpr hnone
            rw [if_pos (.inr hempty), GroupStream.reached_cons_of_neg hnone]
            exact ⟨claimed, _, rfl, by rw [hclaimed, hempty]; rfl⟩
          · have hsome : entries ≠ [] := fun h => hnone (hpaged.entries_eq_nil.mp h)
            rw [GroupStream.reached_cons_of_pos hnone, List.flatten_cons,
              GroupStream.staleOf_append, List.map_append, ← hpaged.ids, ← hclaimed]
            cases hq : (p :: ps).drop n with
            | nil =>
                -- the last page
                rw [if_pos (.inl (hzero.mpr hq))]
                refine ⟨claimed, _, rfl, ?_⟩
                cases fuel <;> simp [GroupStream.pagesFrom, GroupStream.staleOf]
            | cons q qs =>
                have hgo : ¬ (next = 0 ∨ entries = []) := fun h =>
                  h.elim (fun h0 => by rw [hzero.mp h0] at hq; cases hq) hsome
                have hnext : next = q.id := by
                  rw [hpaged.next_eq, hq]
                  rfl
                have hstream : Function.update S (B.stream queue) s' (B.stream queue) = s' :=
                  Function.update_self ..
                obtain ⟨messages, S', hmessages, hids⟩ := @ih
                  (Function.update S (B.stream queue) s') q.id (q :: qs)
                  (by rw [hstream]; exact hpaged.sound)
                  (by
                    rw [hstream]
                    intro p hp
                    obtain ⟨p', hp', hid⟩ := hpaged.pending p hp
                    exact hid ▸ hpos p' hp')
                  (by rw [hstream, hpaged.same]; exact hholds)
                  (by rw [hstream]; exact hpaged.behind q qs hq) (hq ▸ hlen)
                rw [hstream, GroupStream.staleOf_congr hpaged.same,
                  GroupStream.pagesFrom_congr hpaged.same,
                  GroupStream.reached_congr hpaged.same] at hids
                refine ⟨claimed ++ messages, S', ?_, by rw [List.map_append, hids]⟩
                rw [if_neg hgo, hnext, Prog.run_bind, hmessages]
                rfl

/-- **Every stale entry is recovered**, once, exactly where no page without a stale entry comes
before one that has some. -/
theorem claimFrom_recovers_iff (hcount : 1 ≤ count) {fuel : ℕ}
    (hs : (S (B.stream queue)).Sound) (hpos : ∀ p ∈ (S (B.stream queue)).pending, 0 < p.id)
    (hholds : ∀ e ∈ (S (B.stream queue)).entries, B.Holds e.body)
    (hfuel : (S (B.stream queue)).pending.length < fuel) :
    (∃ messages S', (B.claimFrom queue consumer minIdle count fuel 0).run (Streams.serve γ) S =
        (.ok messages, S') ∧
      ∀ p ∈ (S (B.stream queue)).pending, (S (B.stream queue)).Stale minIdle γ.now p →
        (messages.map (·.messageId)).count p.id = 1) ↔
      (S (B.stream queue)).Unbroken minIdle γ.now count := by
  have hall : (S (B.stream queue)).pending.filter (0 ≤ ·.id) = (S (B.stream queue)).pending :=
    List.filter_eq_self.mpr fun p _ => decide_eq_true (Nat.zero_le p.id)
  obtain ⟨messages, S', hrun, hids⟩ := run_claimFrom (γ := γ) consumer minIdle
    hcount hs hpos hholds hall hfuel
  rw [GroupStream.pagesFrom_eq hcount hfuel.le, ← GroupStream.pages] at hids
  have hsub := GroupStream.staleOf_reached_sublist (S (B.stream queue)) minIdle γ.now
    ((S (B.stream queue)).pages minIdle γ.now count)
  rw [GroupStream.Unbroken, ← GroupStream.staleOf_reached_iff]
  rw [GroupStream.pages_flatten hcount] at hsub ⊢
  constructor
  · rintro ⟨messages', S'', hrun', honce⟩
    rw [hrun, Prod.mk.injEq, Except.ok.injEq] at hrun'
    refine hsub.eq_of_length_le ?_
    -- every stale entry is among those of the pages reached
    have hmem : ∀ id ∈ ((S (B.stream queue)).staleOf minIdle γ.now
        (S (B.stream queue)).pending).map (·.id), id ∈ messages.map (·.messageId) := by
      intro id hid
      obtain ⟨p, hp, rfl⟩ := List.mem_map.mp hid
      obtain ⟨hpending, hstale⟩ := List.mem_filter.mp hp
      have hcount := honce p hpending (of_decide_eq_true hstale)
      rw [hrun'.1]
      exact List.count_pos_iff.mp (by omega)
    have hlen := (hs.staleOf_nodup.subperm hmem).length_le
    rwa [hids, List.length_map, List.length_map] at hlen
  · intro h
    refine ⟨messages, S', hrun, fun p hp hstale => ?_⟩
    rw [hids, h]
    exact List.count_eq_one_of_mem hs.staleOf_nodup
      (List.mem_map_of_mem (List.mem_filter.mpr ⟨hp, decide_eq_true hstale⟩))

end StreamBus

/-! ### A page without a stale entry -/

section Sample

/-- A bus whose payloads are read as empty objects. -/
def plainBus : StreamBus where
  keyPrefix := "ag:"
  group := "workers"
  maxDepth := 100
  codec :=
    { dumps := fun _ => "\x7b\x7d"
      loads := fun text => if text = "\x7b\x7d" then some (.obj []) else none
      isoformat := fun _ => ""
      fromisoformat := fun _ => none }

/-- Eleven pending entries at the time 100: the first `fresh` of them were handed out just now, and
the others at the time 0. -/
def elevenPending (fresh : ℕ) : Streams := fun _ =>
  { entries := (List.range 11).map fun i => ⟨i + 1, [("payload", "\x7b\x7d")]⟩
    nextId := 12
    lastDelivered := 11
    pending := (List.range 11).map fun i => ⟨i + 1, "w", if i < fresh then 100 else 0, 1⟩ }

theorem sound_elevenPending (fresh : ℕ) (key : String) : (elevenPending fresh key).Sound := by
  have hids : (elevenPending fresh key).entries.map (·.id) = (List.range 11).map (· + 1) := rfl
  have hpending : (elevenPending fresh key).pending.map (·.id) = (List.range 11).map (· + 1) := rfl
  have hpairwise : ((List.range 11).map (· + 1)).Pairwise (· < ·) := by decide
  have hbound : ∀ id ∈ (List.range 11).map (· + 1), id ≤ 11 := by decide
  exact {
    ascending := hids ▸ hpairwise
    bound := fun id hid => Nat.lt_succ_of_le (hbound id (hids ▸ hid))
    delivered_lt := Nat.lt_succ_self 11
    pending_ascending := hpending ▸ hpairwise
    pending_le := fun id hid => hbound id (hpending ▸ hid) }

theorem pos_elevenPending (fresh : ℕ) (key : String) :
    ∀ p ∈ (elevenPending fresh key).pending, 0 < p.id := by
  intro p hp
  obtain ⟨i, -, rfl⟩ := List.mem_map.mp hp
  exact Nat.succ_pos i

theorem holds_elevenPending (fresh : ℕ) (key : String) :
    ∀ e ∈ (elevenPending fresh key).entries, plainBus.Holds e.body := by
  intro e he
  obtain ⟨i, -, rfl⟩ := List.mem_map.mp he
  exact ⟨List.cons_ne_nil _ _, rfl⟩

/-- All eleven are stale, and recovered one by one. -/
theorem claimFrom_recovers_eleven :
    ∃ messages S', (plainBus.claimFrom "submit" "w" 60 1 12 0).run (Streams.serve ⟨100, 0, .ok ()⟩)
        (elevenPending 0) = (.ok messages, S') ∧
      ∀ p ∈ (elevenPending 0 "ag:submit").pending,
        (elevenPending 0 "ag:submit").Stale 60 100 p →
          (messages.map (·.messageId)).count p.id = 1 :=
  (@StreamBus.claimFrom_recovers_iff plainBus ⟨100, 0, .ok ()⟩ (elevenPending 0) "submit" _ _ _
    le_rfl _ (sound_elevenPending 0 _) (pos_elevenPending 0 _)
    (holds_elevenPending 0 _) (by decide)).mpr (by decide +kernel)

/-- Ten fresh entries before a stale one hide it from a call that asks for one. -/
theorem claimFrom_misses :
    ¬ ∀ S : Streams, ∃ messages S', (plainBus.claimFrom "submit" "w" 60 1 12 0).run
        (Streams.serve ⟨100, 0, .ok ()⟩) S = (.ok messages, S') ∧
      ∀ p ∈ (S "ag:submit").pending, (S "ag:submit").Stale 60 100 p →
        (messages.map (·.messageId)).count p.id = 1 := by
  intro h
  obtain ⟨messages, S', hrun, honce⟩ := h (elevenPending 10)
  obtain ⟨messages', S'', hrun', hids⟩ := @StreamBus.run_claimFrom plainBus
    ⟨100, 0, .ok ()⟩ (elevenPending 10) "submit" 1 "w" 60 le_rfl 12 0 _ (sound_elevenPending 10 _)
    (pos_elevenPending 10 _) (holds_elevenPending 10 _) rfl (by decide)
  rw [hrun, Prod.mk.injEq, Except.ok.injEq] at hrun'
  have hnone : messages'.map (·.messageId) = [] := hids.trans (by decide +kernel)
  have hlast := honce ⟨11, "w", 0, 1⟩ (by decide +kernel) (by decide +kernel)
  rw [hrun'.1, hnone] at hlast
  exact absurd hlast (by decide)

end Sample

end AsyncGateway
