import Mathlib.Data.Nat.Notation
import Mathlib.Data.Int.Notation
import Mathlib.Logic.Basic

/-!
# Library — JSON documents and the paths through them

A document is a tree of objects and arrays; an object is the list of its fields in order, as a
Python dictionary keeps them.  `follow` reads a path of keys and indices, `write` sets a path of
keys in the fields of an object, making the objects on the way that are missing.  The laws are
those of reading after writing: the path written reads as the value written, and a path that is
neither a prefix nor an extension of it reads as before.
-/

/-- A JSON document; a float is kept as the text Python writes for it. -/
inductive Json : Type where
  | null
  | bool (b : Bool)
  | int (n : ℤ)
  | float (text : String)
  | str (s : String)
  | arr (items : List Json)
  | obj (fields : List (String × Json))

namespace Json

abbrev Fields := List (String × Json)

/-! ### Induction over a document -/

/-- A document by the documents in it. -/
@[elab_as_elim]
theorem induct {motive : Json → Prop} (null : motive .null) (bool : ∀ b, motive (.bool b))
    (int : ∀ n, motive (.int n)) (float : ∀ text, motive (.float text))
    (str : ∀ s, motive (.str s)) (arr : ∀ items, (∀ x ∈ items, motive x) → motive (.arr items))
    (obj : ∀ fields, (∀ f ∈ fields, motive f.2) → motive (.obj fields)) (doc : Json) :
    motive doc :=
  @Json.rec motive (fun items => ∀ x ∈ items, motive x) (fun fields => ∀ f ∈ fields, motive f.2)
    (fun f => motive f.2) null bool int float str arr obj
    (List.forall_mem_nil _) (fun _ _ hx hxs => List.forall_mem_cons.mpr ⟨hx, hxs⟩)
    (List.forall_mem_nil _) (fun _ _ hf hfs => List.forall_mem_cons.mpr ⟨hf, hfs⟩)
    (fun _ _ h => h) doc

/-- One step of a path. -/
inductive Step : Type where
  | key (k : String)
  | index (i : ℤ)
  deriving DecidableEq

def Step.isKey : Step → Bool
  | .key _ => true
  | .index _ => false

/-- `xs[i]`, from the end for a negative `i`. -/
def item? (xs : List Json) (i : ℤ) : Option Json :=
  if 0 ≤ i then xs[i.toNat]? else if -(xs.length : ℤ) ≤ i then xs[(xs.length + i).toNat]? else none

/-- The value a path leads to. -/
def follow : Json → List Step → Option Json
  | doc, [] => some doc
  | .obj fs, .key k :: p => (fs.lookup k).bind (follow · p)
  | .arr xs, .index i :: p => (item? xs i).bind (follow · p)
  | _, _ :: _ => none

/-- `fields[k] = v`. -/
def put : Fields → String → Json → Fields
  | [], k, v => [(k, v)]
  | (k', v') :: fs, k, v => if k' = k then (k, v) :: fs else (k', v') :: put fs k v

/-- The fields of the object under `k`; none where there is no object. -/
def fieldsAt (fs : Fields) (k : String) : Fields :=
  match fs.lookup k with
  | some (.obj gs) => gs
  | _ => []

/-- Set a path of keys. -/
def write (fs : Fields) : List String → Json → Fields
  | [], _ => fs
  | [k], v => put fs k v
  | k :: k' :: ks, v => put fs k (.obj (write (fieldsAt fs k) (k' :: ks) v))

/-- `d.update(e)`. -/
def update (d e : Fields) : Fields := e.foldl (fun d kv => put d kv.1 kv.2) d

/-- Whether the value is truthy. -/
def truthy : Json → Bool
  | .null => false
  | .bool b => b
  | .int n => decide (n ≠ 0)
  | .float text => decide (text ≠ "0.0" ∧ text ≠ "-0.0")
  | .str s => decide (s ≠ "")
  | .arr items => !items.isEmpty
  | .obj fields => !fields.isEmpty

/-! ### The size of a serialised document -/

/-- The bytes of a character inside a JSON string. -/
def charBytes (c : Char) : ℕ :=
  if c = '"' ∨ c = '\\' then 2
  else if c = '\n' ∨ c = '\r' ∨ c = '\t' ∨ c.toNat = 8 ∨ c.toNat = 12 then 2
  else if c.toNat < 32 then 6
  else c.utf8Size

def stringBytes (s : String) : ℕ := s.toList.foldr (fun c n => charBytes c + n) 2

theorem charBytes_le (c : Char) : charBytes c ≤ 6 := by
  have hc := c.utf8Size_le_four
  unfold charBytes
  repeat' split
  all_goals omega

theorem stringBytes_le (s : String) : stringBytes s ≤ 6 * s.toList.length + 2 := by
  unfold stringBytes
  induction s.toList with
  | nil => simp
  | cons c cs ih =>
      have hc : charBytes c ≤ 6 := charBytes_le c
      simp only [List.foldr_cons, List.length_cons]
      omega

/-- `", "` between the items. -/
def commaBytes : ℕ → ℕ
  | 0 => 0
  | n + 1 => 2 * n

mutual

/-- The bytes of `json.dumps(doc, ensure_ascii=False)`. -/
def dumpsBytes : Json → ℕ
  | .null => 4
  | .bool true => 4
  | .bool false => 5
  | .int n => (toString n).length
  | .float text => text.length
  | .str s => stringBytes s
  | .arr items => 2 + itemsBytes items + commaBytes items.length
  | .obj fields => 2 + fieldsBytes fields + commaBytes fields.length

def itemsBytes : List Json → ℕ
  | [] => 0
  | x :: xs => dumpsBytes x + itemsBytes xs

def fieldsBytes : List (String × Json) → ℕ
  | [] => 0
  | (k, v) :: fs => stringBytes k + 2 + dumpsBytes v + fieldsBytes fs

end

example : dumpsBytes (.obj [("id", .str "t-1"), ("n", .arr [.int 1, .null])]) = 29 := by decide

/-! ### Dictionaries -/

section Dictionaries

variable {α : Type} {fs gs : List (String × α)}

theorem lookup_map_snd {β : Type} (g : α → β) (fs : List (String × α)) (k : String) :
    (fs.map fun f => (f.1, g f.2)).lookup k = (fs.lookup k).map g := by
  induction fs with
  | nil => rfl
  | cons f fs ih =>
      rw [List.map_cons, List.lookup_cons, List.lookup_cons, ih]
      cases k == f.1 <;> rfl

theorem lookup_of_mem (h : (fs.map Prod.fst).Nodup) {f : String × α} (hf : f ∈ fs) :
    fs.lookup f.1 = some f.2 := by
  induction fs with
  | nil => cases hf
  | cons g fs ih =>
      obtain ⟨hj, hn⟩ := List.nodup_cons.mp h
      rcases List.mem_cons.mp hf with rfl | hf
      · exact List.lookup_cons_self
      · have hne : f.1 ≠ g.1 := fun he => hj (List.mem_map.mpr ⟨f, hf, he⟩)
        rw [List.lookup_cons, beq_false_of_ne hne]
        exact ih hn hf

theorem lookup_eq_some_iff_mem (h : (fs.map Prod.fst).Nodup) {k : String} {v : α} :
    fs.lookup k = some v ↔ (k, v) ∈ fs := by
  constructor
  · intro hl
    obtain ⟨l, m, rfl, -⟩ := List.lookup_eq_some_iff.mp hl
    exact List.mem_append_right _ List.mem_cons_self
  · exact lookup_of_mem h

/-- The order of a dictionary does not matter. -/
theorem lookup_perm (h : (fs.map Prod.fst).Nodup) (hp : fs.Perm gs) (k : String) :
    fs.lookup k = gs.lookup k := by
  have hg : (gs.map Prod.fst).Nodup := (hp.map Prod.fst).nodup_iff.mp h
  refine Option.ext fun v => ?_
  rw [lookup_eq_some_iff_mem h, lookup_eq_some_iff_mem hg, hp.mem_iff]

end Dictionaries

/-! ### The strings of a document -/

mutual

/-- The document with every string that is a value changed by `f`. -/
def mapStrings (f : String → String) : Json → Json
  | .str s => .str (f s)
  | .arr items => .arr (mapItems f items)
  | .obj fields => .obj (mapFields f fields)
  | doc => doc

def mapItems (f : String → String) : List Json → List Json
  | [] => []
  | x :: xs => mapStrings f x :: mapItems f xs

def mapFields (f : String → String) : List (String × Json) → List (String × Json)
  | [] => []
  | (k, v) :: fs => (k, mapStrings f v) :: mapFields f fs

end

mutual

/-- The strings of the document that are values. -/
def texts : Json → List String
  | .str s => [s]
  | .arr items => textsItems items
  | .obj fields => textsFields fields
  | _ => []

def textsItems : List Json → List String
  | [] => []
  | x :: xs => texts x ++ textsItems xs

def textsFields : List (String × Json) → List String
  | [] => []
  | (_, v) :: fs => texts v ++ textsFields fs

end

mutual

/-- The strings of the document that are keys. -/
def keys : Json → List String
  | .arr items => keysItems items
  | .obj fields => keysFields fields
  | _ => []

def keysItems : List Json → List String
  | [] => []
  | x :: xs => keys x ++ keysItems xs

def keysFields : List (String × Json) → List String
  | [] => []
  | (k, v) :: fs => k :: keys v ++ keysFields fs

end

section MapStrings

variable (f : String → String)

theorem mapItems_eq_map (xs : List Json) : mapItems f xs = xs.map (mapStrings f) := by
  induction xs with
  | nil => rfl
  | cons x xs ih => simp [mapItems, ih]

theorem mapFields_eq_map (fs : Fields) :
    mapFields f fs = fs.map fun kv => (kv.1, mapStrings f kv.2) := by
  induction fs with
  | nil => rfl
  | cons kv fs ih => rw [mapFields, ih, List.map_cons]

theorem lookup_mapFields (k : String) (fs : Fields) :
    (mapFields f fs).lookup k = (fs.lookup k).map (mapStrings f) := by
  rw [mapFields_eq_map, lookup_map_snd]

theorem item?_map (xs : List Json) (i : ℤ) :
    item? (xs.map (mapStrings f)) i = (item? xs i).map (mapStrings f) := by
  simp only [item?, List.length_map, List.getElem?_map]
  split
  · rfl
  · split <;> rfl

/-- A path leads to the changed value. -/
theorem follow_mapStrings (path : List Step) (doc : Json) :
    (mapStrings f doc).follow path = (doc.follow path).map (mapStrings f) := by
  induction path generalizing doc with
  | nil => cases doc <;> rfl
  | cons s path ih =>
      have bind_map : ∀ node : Option Json,
          (node.map (mapStrings f)).bind (follow · path) =
            (node.bind (follow · path)).map (mapStrings f) := fun node => by
        cases node with
        | none => rfl
        | some v => exact ih v
      cases doc <;> cases s <;> try rfl
      · rename_i items i
        simp only [mapStrings, follow, mapItems_eq_map, item?_map, bind_map]
      · rename_i fields k
        simp only [mapStrings, follow, lookup_mapFields, bind_map]

theorem truthy_mapStrings {f : String → String} (hf : ∀ s, f s = "" ↔ s = "") (doc : Json) :
    (mapStrings f doc).truthy = doc.truthy := by
  cases doc with
  | str s => simp [mapStrings, truthy, hf s]
  | arr items => cases items <;> rfl
  | obj fields => cases fields <;> rfl
  | _ => rfl

theorem textsItems_eq (xs : List Json) : textsItems xs = xs.flatMap texts := by
  induction xs with
  | nil => rfl
  | cons x xs ih => rw [textsItems, ih, List.flatMap_cons]

theorem textsFields_eq (fs : Fields) : textsFields fs = fs.flatMap fun kv => texts kv.2 := by
  induction fs with
  | nil => rfl
  | cons kv fs ih => rw [textsFields, ih, List.flatMap_cons]

theorem keysItems_eq (xs : List Json) : keysItems xs = xs.flatMap keys := by
  induction xs with
  | nil => rfl
  | cons x xs ih => rw [keysItems, ih, List.flatMap_cons]

theorem keysFields_eq (fs : Fields) : keysFields fs = fs.flatMap fun kv => kv.1 :: keys kv.2 := by
  induction fs with
  | nil => rfl
  | cons kv fs ih => rw [keysFields, ih, List.flatMap_cons]

theorem texts_mapStrings (doc : Json) : (mapStrings f doc).texts = doc.texts.map f := by
  induction doc using induct with
  | arr items ih =>
      rw [mapStrings, mapItems_eq_map, texts, texts, textsItems_eq, textsItems_eq,
        List.flatMap_map, List.map_flatMap]
      exact congrArg List.flatten (List.map_congr_left ih)
  | obj fields ih =>
      rw [mapStrings, mapFields_eq_map, texts, texts, textsFields_eq, textsFields_eq,
        List.flatMap_map, List.map_flatMap]
      exact congrArg List.flatten (List.map_congr_left ih)
  | _ => rfl

theorem keys_mapStrings (doc : Json) : (mapStrings f doc).keys = doc.keys := by
  induction doc using induct with
  | arr items ih =>
      rw [mapStrings, mapItems_eq_map, keys, keys, keysItems_eq, keysItems_eq, List.flatMap_map]
      exact congrArg List.flatten (List.map_congr_left ih)
  | obj fields ih =>
      rw [mapStrings, mapFields_eq_map, keys, keys, keysFields_eq, keysFields_eq,
        List.flatMap_map]
      have hfield : ∀ kv ∈ fields, kv.1 :: (mapStrings f kv.2).keys = kv.1 :: kv.2.keys :=
        fun kv hkv => congrArg (kv.1 :: ·) (ih kv hkv)
      exact congrArg List.flatten (List.map_congr_left hfield)
  | _ => rfl

end MapStrings

/-! ### Reading after writing -/

@[simp] theorem follow_nil (doc : Json) : doc.follow [] = some doc := by cases doc <;> rfl

@[simp] theorem follow_obj_key {fs : Fields} {k : String} {p : List Step} :
    (obj fs).follow (.key k :: p) = (fs.lookup k).bind (follow · p) := rfl

@[simp] theorem lookup_put_self (fs : Fields) (k : String) (v : Json) :
    (put fs k v).lookup k = some v := by
  induction fs with
  | nil => simp [put]
  | cons f fs ih =>
      obtain ⟨k', v'⟩ := f
      by_cases h : k' = k
      · simp [put, h]
      · have h' : (k == k') = false := by simpa using Ne.symm h
        simp [put, h, List.lookup_cons, h', ih]

theorem lookup_put_ne (fs : Fields) {k k' : String} (v : Json) (h : k' ≠ k) :
    (put fs k v).lookup k' = fs.lookup k' := by
  induction fs with
  | nil => simp [put, List.lookup_cons, beq_false_of_ne h]
  | cons f fs ih =>
      obtain ⟨j, w⟩ := f
      by_cases hj : j = k
      · subst hj
        simp [put, List.lookup_cons, beq_false_of_ne h]
      · simp only [put, if_neg hj, List.lookup_cons, ih]

/-- An update leaves the keys it does not name. -/
theorem lookup_update {d e : Fields} {k : String} (h : e.lookup k = none) :
    (update d e).lookup k = d.lookup k := by
  induction e generalizing d with
  | nil => rfl
  | cons f e ih =>
      obtain ⟨j, v⟩ := f
      have hj : k ≠ j := by
        rintro rfl
        simp at h
      have he : e.lookup k = none := by simpa [List.lookup_cons, beq_false_of_ne hj] using h
      exact (ih he).trans (lookup_put_ne d v hj)

theorem nodup_put {d : Fields} (h : (d.map Prod.fst).Nodup) (k : String) (v : Json) :
    ((put d k v).map Prod.fst).Nodup := by
  have hmem : ∀ {d : Fields} {j : String}, j ∈ (put d k v).map Prod.fst →
      j = k ∨ j ∈ d.map Prod.fst := by
    intro d j hj
    induction d with
    | nil => simpa [put] using hj
    | cons f d ih =>
        obtain ⟨k', v'⟩ := f
        by_cases hk : k' = k
        · subst hk
          exact .inr (by simpa [put] using hj)
        · simp only [put, if_neg hk, List.map_cons, List.mem_cons] at hj ⊢
          rcases hj with rfl | hj
          · exact .inr (.inl rfl)
          · exact (ih hj).imp_right .inr
  induction d with
  | nil => simp [put]
  | cons f d ih =>
      obtain ⟨k', v'⟩ := f
      obtain ⟨hk', hd⟩ := List.nodup_cons.mp h
      by_cases hk : k' = k
      · subst hk
        simpa [put] using h
      · simp only [put, if_neg hk, List.map_cons, List.nodup_cons]
        exact ⟨fun hj => (hmem hj).elim hk hk', ih hd⟩

theorem nodup_update {d : Fields} (h : (d.map Prod.fst).Nodup) (e : Fields) :
    ((update d e).map Prod.fst).Nodup := by
  induction e generalizing d with
  | nil => exact h
  | cons f e ih => exact ih (nodup_put h f.1 f.2)

section Gather

variable (value : String → Json)

/-- A dictionary filled key by key has the value of each of the keys. -/
theorem lookup_foldl_put (keys : List String) (d : Fields) (k : String) :
    (keys.foldl (fun d key => put d key (value key)) d).lookup k =
      if k ∈ keys then some (value k) else d.lookup k := by
  induction keys generalizing d with
  | nil => rfl
  | cons key keys ih =>
      rw [List.foldl_cons, ih]
      by_cases hk : k = key
      · subst hk
        simp
      · simp [hk, lookup_put_ne d (value key) hk]

theorem nodup_foldl_put (keys : List String) {d : Fields} (h : (d.map Prod.fst).Nodup) :
    ((keys.foldl (fun d key => put d key (value key)) d).map Prod.fst).Nodup := by
  have hupdate : keys.foldl (fun d key => put d key (value key)) d =
      update d (keys.map fun key => (key, value key)) := by rw [update, List.foldl_map]
  rw [hupdate]
  exact nodup_update h _

end Gather

/-- An update by a dictionary has the values of that, and the others as before. -/
theorem lookup_update_of_nodup {e : Fields} (he : (e.map Prod.fst).Nodup) (d : Fields)
    (k : String) : (update d e).lookup k = (e.lookup k).or (d.lookup k) := by
  induction e generalizing d with
  | nil => rfl
  | cons f e ih =>
      obtain ⟨j, v⟩ := f
      obtain ⟨hj, he⟩ := List.nodup_cons.mp he
      have hcons : (update d ((j, v) :: e)).lookup k = (e.lookup k).or ((put d j v).lookup k) :=
        ih he (put d j v)
      by_cases hk : k = j
      · subst hk
        have hnone : e.lookup k = none :=
          List.lookup_eq_none_iff.mpr fun f hf => by
            simpa using fun h => hj (List.mem_map.mpr ⟨f, hf, h.symm⟩)
        rw [hcons, hnone, lookup_put_self, List.lookup_cons_self]
        rfl
      · rw [hcons, lookup_put_ne d v hk, List.lookup_cons, beq_false_of_ne hk]

/-- The path written reads as the value written. -/
theorem follow_write_self {ks : List String} (h : ks ≠ []) (fs : Fields) (v : Json) :
    (obj (write fs ks v)).follow (ks.map .key) = some v := by
  induction ks generalizing fs with
  | nil => exact absurd rfl h
  | cons k ks ih =>
      cases ks with
      | nil => simp [write]
      | cons k' ks => simpa [write] using ih (List.cons_ne_nil _ _) (fieldsAt fs k)

/-- Paths of which neither begins with the other. -/
def Apart {α : Type} (p q : List α) : Prop := ¬ p <+: q ∧ ¬ q <+: p

instance {α : Type} [DecidableEq α] (p q : List α) : Decidable (Apart p q) :=
  inferInstanceAs (Decidable (_ ∧ _))

theorem Apart.cons {α : Type} {k : α} {p q : List α} (h : Apart (k :: p) (k :: q)) : Apart p q :=
  ⟨fun hp => h.1 ((List.prefix_cons_inj k).mpr hp), fun hq => h.2 ((List.prefix_cons_inj k).mpr hq)⟩

/-- Only an object has something under a key. -/
theorem follow_key_eq_some {doc v : Json} {k : String} {p : List Step}
    (h : doc.follow (.key k :: p) = some v) :
    ∃ fs node, doc = .obj fs ∧ fs.lookup k = some node ∧ node.follow p = some v := by
  cases doc with
  | obj fs =>
      obtain ⟨node, hnode, hv⟩ := Option.bind_eq_some_iff.mp h
      exact ⟨fs, node, rfl, hnode, hv⟩
  | _ => simp [follow] at h

theorem follow_append (doc : Json) (p q : List Step) :
    doc.follow (p ++ q) = (doc.follow p).bind (·.follow q) := by
  induction p generalizing doc with
  | nil => simp
  | cons s p ih =>
      cases doc <;> cases s <;> try rfl
      · rename_i items i
        simp only [List.cons_append, follow]
        cases item? items i with
        | none => rfl
        | some node => exact ih node
      · rename_i fields k
        simp only [List.cons_append, follow]
        cases fields.lookup k with
        | none => rfl
        | some node => exact ih node

/-- Only an array has something under an index. -/
theorem follow_index_eq_some {doc v : Json} {i : ℤ} {p : List Step}
    (h : doc.follow (.index i :: p) = some v) : ∃ items, doc = .arr items := by
  cases doc with
  | arr items => exact ⟨items, rfl⟩
  | _ => simp [follow] at h

theorem follow_str_eq_some {s : String} {v : Json} {p : List Step}
    (h : (Json.str s).follow p = some v) : p = [] ∧ v = .str s := by
  cases p with
  | nil =>
      rw [follow_nil, Option.some.injEq] at h
      exact ⟨rfl, h.symm⟩
  | cons s p => simp [follow] at h

/-! ### The laws of a write -/

/-- Below a key, the fields that are written on are those of the object there, if any. -/
theorem follow_fieldsAt {p : List Step} (fs : Fields) (k j : String) :
    (obj (fieldsAt fs k)).follow (.key j :: p) = (obj fs).follow (.key k :: .key j :: p) := by
  unfold fieldsAt
  split
  · next hk => simp [hk]
  · next hk =>
      cases hl : fs.lookup k with
      | none => simp [hl]
      | some node =>
          cases node with
          | obj gs => exact absurd hl (hk gs)
          | _ => simp [hl, follow]

@[simp] theorem fieldsAt_put_self (fs gs : Fields) (k : String) :
    fieldsAt (put fs k (.obj gs)) k = gs := by
  simp [fieldsAt]

theorem put_put (fs : Fields) (k : String) (v w : Json) : put (put fs k v) k w = put fs k w := by
  induction fs with
  | nil => simp [put]
  | cons f fs ih =>
      obtain ⟨j, u⟩ := f
      by_cases h : j = k
      · simp [put, h]
      · simp [put, h, ih]

/-- Putting what is there changes nothing, the order of the fields included. -/
theorem put_lookup {fs : Fields} {k : String} {v : Json} (h : fs.lookup k = some v) :
    put fs k v = fs := by
  induction fs with
  | nil => cases h
  | cons f fs ih =>
      obtain ⟨j, u⟩ := f
      by_cases hj : j = k
      · subst hj
        simp only [List.lookup_cons_self, Option.some.injEq] at h
        simp [put, h]
      · rw [List.lookup_cons, beq_false_of_ne (Ne.symm hj)] at h
        simp [put, hj, ih h]

/-- A second write at a path leaves nothing of the first. -/
theorem write_write {ks : List String} (fs : Fields) (v w : Json) :
    write (write fs ks v) ks w = write fs ks w := by
  induction ks generalizing fs with
  | nil => rfl
  | cons k ks ih =>
      cases ks with
      | nil => exact put_put fs k v w
      | cons k' ks => simp only [write, fieldsAt_put_self, put_put, ih]

/-- Writing what a path leads to changes nothing. -/
theorem write_follow {ks : List String} {fs : Fields} {v : Json}
    (h : (obj fs).follow (ks.map .key) = some v) : write fs ks v = fs := by
  induction ks generalizing fs with
  | nil => rfl
  | cons k ks ih =>
      obtain ⟨gs, node, hgs, hnode, hrest⟩ := follow_key_eq_some h
      cases hgs
      cases ks with
      | nil =>
          rw [List.map_nil, follow_nil, Option.some.injEq] at hrest
          exact put_lookup (hrest ▸ hnode)
      | cons k' ks =>
          obtain ⟨hs, -, rfl, -, -⟩ := follow_key_eq_some hrest
          have hat : fieldsAt fs k = hs := by simp [fieldsAt, hnode]
          simp only [write, hat, ih hrest, put_lookup hnode]

/-! ### What a write leaves at another path -/

/-- The fields of a value that is an object; none where there is no object. -/
def objFields : Option Json → Fields
  | some (.obj fs) => fs
  | _ => []

theorem fieldsAt_eq (fs : Fields) (k : String) : fieldsAt fs k = objFields (fs.lookup k) := rfl

/-- What is at the path `ps` after a write at `ks`, where there was `old`. -/
def rewritten (ks : List String) (value : Json) (ps : List String) (old : Option Json) :
    Option Json :=
  if ks <+: ps then value.follow ((ps.drop ks.length).map .key)
  else if ps <+: ks then some (.obj (write (objFields old) (ks.drop ps.length) value))
  else old

theorem rewritten_cons {k : String} {ks ps : List String} {value : Json} {old : Option Json} :
    rewritten (k :: ks) value (k :: ps) old = rewritten ks value ps old := by
  simp only [rewritten, List.prefix_cons_inj, List.length_cons, List.drop_succ_cons]

theorem rewritten_cons_ne {k p : String} (h : p ≠ k) {ks ps : List String} {value : Json}
    {old : Option Json} : rewritten (k :: ks) value (p :: ps) old = old := by
  have h₁ : ¬ k :: ks <+: p :: ps := fun hp => h (List.cons_prefix_cons.mp hp).1.symm
  have h₂ : ¬ p :: ps <+: k :: ks := fun hp => h (List.cons_prefix_cons.mp hp).1
  rw [rewritten, if_neg h₁, if_neg h₂]

theorem rewritten_nil {ks : List String} (h : ks ≠ []) (value : Json) (old : Option Json) :
    rewritten ks value [] old = some (.obj (write (objFields old) ks value)) := by
  rw [rewritten, if_neg (mt List.prefix_nil.mp h), if_pos List.nil_prefix]
  rfl

/-- A path apart from the one written reads as before. -/
theorem rewritten_of_apart {ks ps : List String} (h : Apart ks ps) (value : Json)
    (old : Option Json) : rewritten ks value ps old = old := by
  rw [rewritten, if_neg h.1, if_neg h.2]

/-- **What is at a path after a write** depends only on what was there. -/
theorem follow_write {ks : List String} (h : ks ≠ []) (fs : Fields) (value : Json)
    (ps : List String) :
    (obj (write fs ks value)).follow (ps.map .key) =
      rewritten ks value ps ((obj fs).follow (ps.map .key)) := by
  induction ks generalizing fs ps with
  | nil => exact absurd rfl h
  | cons k ks ih =>
      cases ps with
      | nil => rw [rewritten_nil h]; rfl
      | cons p ps =>
          by_cases hp : p = k
          · subst hp
            rw [rewritten_cons]
            cases ks with
            | nil => simp [write, rewritten]
            | cons k' ks =>
                have hbelow := ih (List.cons_ne_nil _ _) (fieldsAt fs p) ps
                simp only [write, List.map_cons, follow_obj_key, lookup_put_self,
                  Option.bind_some, hbelow]
                cases ps with
                | nil =>
                    rw [rewritten_nil (List.cons_ne_nil _ _),
                      rewritten_nil (List.cons_ne_nil _ _), fieldsAt_eq]
                    simp [objFields]
                | cons q ps =>
                    rw [List.map_cons, follow_fieldsAt]
                    rfl
          · rw [rewritten_cons_ne hp]
            cases ks <;> simp [write, lookup_put_ne _ _ hp]

mutual

/-- No object of the document has a key twice, as no dictionary has. -/
def Distinct : Json → Prop
  | .arr items => DistinctItems items
  | .obj fields => (fields.map Prod.fst).Nodup ∧ DistinctFields fields
  | _ => True

def DistinctItems : List Json → Prop
  | [] => True
  | x :: xs => Distinct x ∧ DistinctItems xs

def DistinctFields : List (String × Json) → Prop
  | [] => True
  | (_, v) :: fs => Distinct v ∧ DistinctFields fs

end

end Json
