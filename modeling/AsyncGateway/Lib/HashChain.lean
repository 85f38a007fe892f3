import Mathlib.Data.List.Nodup
import Mathlib.Data.List.Infix
import Mathlib.Data.List.Forall2

/-!
# Library — hash chains

A record carries its own hash and the hash of the record before it, and the own hash is a digest
of the two (`HashChain`).  `Chained p rs` says that the records `rs` continue a chain that ends in
the hash `p`.

Where the digest gives the previous hash away, the hashes of a chain are pairwise different
(`Chained.nodup`).  So a chain made of the records of another is a first part of it
(`Chained.isPrefix`), and two chains with the same own hashes have the same records, as far as the
digest reads them (`Chained.same`).
-/

namespace Interleave

/-- Records that are chained by a digest. -/
structure HashChain (ρ η : Type) where
  /-- The hash of the record before it, as the record has it. -/
  link : ρ → Option η
  /-- The record's own hash, as the record has it. -/
  own : ρ → η
  digest : Option η → ρ → η

/-- The previous hash can be read back from a digest; `Hash` is what the digest produces. -/
structure HashChain.Lawful {ρ η : Type} (K : HashChain ρ η) (Hash : η → Prop) : Prop where
  hash_digest : ∀ p r, Hash (K.digest p r)
  prev_eq : ∀ {p p' r r'}, (∀ h ∈ p, Hash h) → (∀ h ∈ p', Hash h) →
    K.digest p r = K.digest p' r' → p = p'

namespace HashChain

variable {ρ η : Type} (K : HashChain ρ η)

/-- The records continue a chain that ends in `p`. -/
def Chained : Option η → List ρ → Prop
  | _, [] => True
  | p, r :: rs => K.link r = p ∧ K.own r = K.digest p r ∧ Chained (some (K.own r)) rs

/-- The hash a chain from `p` on ends in. -/
def ending (p : Option η) (rs : List ρ) : Option η := ((rs.getLast?).map K.own).or p

/-- Two records the chain cannot tell apart. -/
structure Same (r r' : ρ) : Prop where
  link_eq : K.link r' = K.link r
  own_eq : K.own r' = K.own r
  digest_eq : K.digest (K.link r) r' = K.digest (K.link r) r

variable {K} {p : Option η} {r : ρ} {rs rs' : List ρ}

@[simp] theorem ending_nil : K.ending p [] = p := rfl

@[simp] theorem ending_concat : K.ending p (rs ++ [r]) = some (K.own r) := by simp [ending]

theorem ending_cons : K.ending p (r :: rs) = K.ending (some (K.own r)) rs := by
  cases h : rs.getLast? <;> simp [ending, List.getLast?_cons, h]

@[simp] theorem chained_nil : K.Chained p [] := trivial

theorem chained_cons : K.Chained p (r :: rs) ↔
    K.link r = p ∧ K.own r = K.digest p r ∧ K.Chained (some (K.own r)) rs := Iff.rfl

/-- The second part of a chain continues where the first ends. -/
theorem chained_append :
    K.Chained p (rs ++ rs') ↔ K.Chained p rs ∧ K.Chained (K.ending p rs) rs' := by
  induction rs generalizing p with
  | nil => simp
  | cons r rs ih => simp [chained_cons, ending_cons, ih, and_assoc]

theorem Chained.take (h : K.Chained p rs) (n : ℕ) : K.Chained p (rs.take n) :=
  (chained_append.mp ((List.take_append_drop n rs).symm ▸ h)).1

/-- A record in the middle of a chain. -/
theorem chained_middle {xs ys : List ρ} (h : K.Chained p (xs ++ r :: ys)) :
    K.link r = K.ending p xs ∧ K.own r = K.digest (K.ending p xs) r :=
  have h' := (chained_append.mp h).2
  ⟨h'.1, h'.2.1⟩

/-- Where own hashes differ, first parts of a chain end differently. -/
theorem ending_inj (hn : (rs.map K.own).Nodup) {xs ys : List ρ} (hx : xs <+: rs) (hy : ys <+: rs)
    (h : K.ending none xs = K.ending none ys) : xs = ys := by
  wlog hxy : xs <+: ys generalizing xs ys
  · exact (this hy hx h.symm ((List.prefix_or_prefix_of_prefix hx hy).resolve_left hxy)).symm
  obtain ⟨zs, rfl⟩ := hxy
  rcases List.eq_nil_or_concat zs with rfl | ⟨zs, z, rfl⟩
  · simp
  -- the last of `ys` is not among `xs`, so `xs` cannot end in its hash
  simp only [List.concat_eq_append, ← List.append_assoc, ending_concat] at h hy
  obtain ⟨ts, rfl⟩ := hy
  rcases List.eq_nil_or_concat xs with rfl | ⟨xs, x, rfl⟩
  · simp at h
  · have hsplit : ((xs.concat x ++ zs).map K.own ++ ([z] ++ ts).map K.own).Nodup := by
      rw [← List.map_append, ← List.append_assoc]
      exact hn
    have hne : K.own x ≠ K.own z := (List.nodup_append.mp hsplit).2.2 _ (by simp) _ (by simp)
    simp [hne] at h

section Lawful

variable {Hash : η → Prop} (hK : K.Lawful Hash)
include hK

/-- A chain from the start ends in nothing, or in a hash. -/
theorem Chained.hash_ending (h : K.Chained none rs) : ∀ x ∈ K.ending none rs, Hash x := by
  rcases List.eq_nil_or_concat rs with rfl | ⟨xs, r, rfl⟩
  · simp
  · simp only [List.concat_eq_append, ending_concat] at h ⊢
    intro x hx
    cases hx
    rw [(chained_middle h).2]
    exact hK.hash_digest _ _

/-- **The hashes of a chain are pairwise different.** -/
theorem Chained.nodup (h : K.Chained none rs) : (rs.map K.own).Nodup := by
  induction rs using List.reverseRecOn with
  | nil => simp
  | append_singleton rs r ih =>
      have hrs : K.Chained none rs := (chained_append.mp h).1
      have hn := ih hrs
      rw [List.map_append, List.nodup_append]
      refine ⟨hn, by simp, ?_⟩
      simp only [List.map_cons, List.map_nil, List.mem_singleton, forall_eq, List.mem_map,
        forall_exists_index, and_imp, forall_apply_eq_imp_iff₂]
      intro r₀ hr₀ heq
      obtain ⟨xs, ys, rfl⟩ := List.append_of_mem hr₀
      have hxs : K.Chained none xs := (chained_append.mp hrs).1
      -- equal own hashes are digests of equal previous hashes
      have hp : K.ending none xs = K.ending none (xs ++ r₀ :: ys) :=
        hK.prev_eq (hxs.hash_ending hK) (hrs.hash_ending hK)
          (((chained_middle hrs).2.symm.trans heq).trans (chained_middle h).2)
      have := ending_inj hn (List.prefix_append _ _) List.prefix_rfl hp
      simp at this

/-- **A chain made of the records of another is a first part of it.** -/
theorem Chained.isPrefix (h : K.Chained none rs) (h' : K.Chained none rs')
    (hm : ∀ r ∈ rs', r ∈ rs) : rs' <+: rs := by
  induction rs' using List.reverseRecOn with
  | nil => exact List.nil_prefix
  | append_singleton xs r ih =>
      have hxs : xs <+: rs :=
        ih (chained_append.mp h').1 fun x hx => hm x (List.mem_append_left _ hx)
      obtain ⟨ys, zs, rfl⟩ := List.append_of_mem (hm r (by simp))
      have hlink : K.ending none ys = K.ending none xs :=
        (chained_middle h).1.symm.trans (chained_middle h').1
      obtain rfl := ending_inj (h.nodup hK) (List.prefix_append _ _) hxs hlink
      exact ⟨zs, by simp⟩

/-- **Chains with the same own hashes have the same records, as far as the digest reads them.** -/
theorem Chained.same {p p' : Option η} (hp : ∀ h ∈ p, Hash h) (hp' : ∀ h ∈ p', Hash h)
    (h : K.Chained p rs) (h' : K.Chained p' rs') (ho : rs'.map K.own = rs.map K.own) :
    (rs ≠ [] → p' = p) ∧ List.Forall₂ K.Same rs rs' := by
  induction rs generalizing rs' p p' with
  | nil =>
      obtain rfl : rs' = [] := by simpa using ho
      exact ⟨fun hne => absurd rfl hne, .nil⟩
  | cons r rs ih =>
      obtain ⟨r', rs', rfl⟩ := List.exists_cons_of_ne_nil (show rs' ≠ [] by rintro rfl; simp at ho)
      simp only [List.map_cons, List.cons.injEq] at ho
      obtain ⟨hl, hd, ht⟩ := h
      obtain ⟨hl', hd', ht'⟩ := h'
      have hdd : K.digest p' r' = K.digest p r := hd'.symm.trans (ho.1.trans hd)
      obtain rfl := hK.prev_eq hp' hp hdd
      have hh : ∀ x ∈ some (K.own r), Hash x := by
        intro x hx
        cases hx
        exact hd ▸ hK.hash_digest _ _
      have hh' : ∀ x ∈ some (K.own r'), Hash x := by
        intro x hx
        cases hx
        exact hd' ▸ hK.hash_digest _ _
      exact ⟨fun _ => rfl, .cons ⟨hl'.trans hl.symm, ho.1, by rw [hl]; exact hdd⟩
        (ih hh hh' ht ht' ho.2).2⟩

end Lawful

/-- Records the chain cannot tell apart can stand for each other. -/
theorem Chained.of_same (h : K.Chained p rs) (hs : List.Forall₂ K.Same rs rs') :
    K.Chained p rs' := by
  induction hs generalizing p with
  | nil => trivial
  | cons hr _ ih =>
      obtain ⟨hl, hd, ht⟩ := h
      subst hl
      exact ⟨hr.link_eq, hr.own_eq.trans (hd.trans hr.digest_eq.symm), hr.own_eq.symm ▸ ih ht⟩

end HashChain

end Interleave
