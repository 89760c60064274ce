import Mathlib.Data.List.Nodup
/-!
# Maps in the order of insertion

A map as the list of its entries, no key twice.  A new key goes to the end, the
value of a known one is replaced where it stands.
-/

namespace Dbmaster.Lib

structure OrderedMap (K V : Type*) where
  entries : List (K × V)
  nodup : (entries.map Prod.fst).Nodup

namespace OrderedMap

variable {K V W : Type*} [DecidableEq K]

def empty : OrderedMap K V := ⟨[], List.nodup_nil⟩

def lookup (m : OrderedMap K V) (key : K) : Option V :=
  (m.entries.find? fun e => e.1 = key).map Prod.snd

/-- The entries with the value of the key set. -/
def set (key : K) (value : V) : List (K × V) → List (K × V)
  | [] => [(key, value)]
  | e :: entries =>
      if e.1 = key then (key, value) :: entries else e :: set key value entries

theorem mem_keys_set (key k : K) (value : V) (entries : List (K × V)) :
    k ∈ (set key value entries).map Prod.fst ↔ k = key ∨ k ∈ entries.map Prod.fst := by
  induction entries with
  | nil => simp [set]
  | cons e entries ih =>
      rw [set]
      by_cases he : e.1 = key
      · rw [if_pos he, List.map_cons, List.map_cons, List.mem_cons, List.mem_cons, he, ← or_assoc,
          or_self]
      · rw [if_neg he, List.map_cons, List.map_cons, List.mem_cons, List.mem_cons, ih,
          or_left_comm]

theorem nodup_set {key : K} {value : V} {entries : List (K × V)}
    (h : (entries.map Prod.fst).Nodup) : ((set key value entries).map Prod.fst).Nodup := by
  induction entries with
  | nil => exact List.nodup_singleton key
  | cons e entries ih =>
      rw [List.map_cons, List.nodup_cons] at h
      rw [set]
      by_cases he : e.1 = key
      · rw [if_pos he, List.map_cons, List.nodup_cons, ← he]
        exact h
      · rw [if_neg he, List.map_cons, List.nodup_cons, mem_keys_set, not_or]
        exact ⟨⟨he, h.1⟩, ih h.2⟩

def insert (m : OrderedMap K V) (key : K) (value : V) : OrderedMap K V :=
  ⟨set key value m.entries, nodup_set m.nodup⟩

/-- The entries inserted one after another. -/
def insertAll (m : OrderedMap K V) (entries : List (K × V)) : OrderedMap K V :=
  entries.foldl (fun out e => out.insert e.1 e.2) m

/-- The map built from the values that `f` gives. -/
def filterMap (f : K → V → Option W) (m : OrderedMap K V) : OrderedMap K W :=
  m.entries.foldl (fun out e =>
    match f e.1 e.2 with
    | some value => out.insert e.1 value
    | none => out) empty

/-! ## Entries -/

omit [DecidableEq K] in
theorem ext {m m' : OrderedMap K V} (h : m.entries = m'.entries) : m = m' := by
  cases m
  cases m'
  cases h
  rfl

theorem set_of_notMem {key : K} {value : V} {entries : List (K × V)}
    (h : key ∉ entries.map Prod.fst) : set key value entries = entries ++ [(key, value)] := by
  induction entries with
  | nil => rfl
  | cons e entries ih =>
      rw [List.map_cons, List.mem_cons, not_or] at h
      rw [set, if_neg (Ne.symm h.1), ih h.2, List.cons_append]

theorem mem_set {key : K} {value : V} {entries : List (K × V)}
    (hnodup : (entries.map Prod.fst).Nodup) (e : K × V) :
    e ∈ set key value entries ↔ e = (key, value) ∨ (e ∈ entries ∧ e.1 ≠ key) := by
  induction entries with
  | nil => simp [set]
  | cons d entries ih =>
      rw [List.map_cons, List.nodup_cons] at hnodup
      rw [set]
      by_cases hd : d.1 = key
      · rw [if_pos hd, List.mem_cons, List.mem_cons]
        refine or_congr_right ⟨fun he => ⟨Or.inr he, fun hkey => hnodup.1 ?_⟩, ?_⟩
        · rw [hd, ← hkey]
          exact List.mem_map_of_mem he
        · rintro ⟨rfl | he, hkey⟩
          · exact absurd hd hkey
          · exact he
      · rw [if_neg hd, List.mem_cons, ih hnodup.2, List.mem_cons]
        constructor
        · rintro (rfl | hnew | ⟨he, hkey⟩)
          · exact Or.inr ⟨Or.inl rfl, hd⟩
          · exact Or.inl hnew
          · exact Or.inr ⟨Or.inr he, hkey⟩
        · rintro (hnew | ⟨rfl | he, hkey⟩)
          · exact Or.inr (Or.inl hnew)
          · exact Or.inl rfl
          · exact Or.inr (Or.inr ⟨he, hkey⟩)

theorem mem_insert (m : OrderedMap K V) (key : K) (value : V) (e : K × V) :
    e ∈ (m.insert key value).entries ↔ e = (key, value) ∨ (e ∈ m.entries ∧ e.1 ≠ key) :=
  mem_set m.nodup e

theorem mem_insertAll {new : List (K × V)} (hnew : (new.map Prod.fst).Nodup)
    (m : OrderedMap K V) (e : K × V) :
    e ∈ (m.insertAll new).entries ↔ e ∈ new ∨ (e ∈ m.entries ∧ e.1 ∉ new.map Prod.fst) := by
  induction new generalizing m with
  | nil => simp [insertAll]
  | cons d new ih =>
      rw [List.map_cons, List.nodup_cons] at hnew
      show e ∈ ((m.insert d.1 d.2).insertAll new).entries ↔ _
      rw [ih hnew.2, mem_insert, List.mem_cons, List.map_cons, List.mem_cons, not_or]
      constructor
      · rintro (he | ⟨rfl | ⟨he, hd⟩, hrest⟩)
        · exact Or.inl (Or.inr he)
        · exact Or.inl (Or.inl rfl)
        · exact Or.inr ⟨he, hd, hrest⟩
      · rintro ((rfl | he) | ⟨he, hd, hrest⟩)
        · exact Or.inr ⟨Or.inl rfl, hnew.1⟩
        · exact Or.inl he
        · exact Or.inr ⟨Or.inr ⟨he, hd⟩, hrest⟩

theorem entries_filterMap (f : K → V → Option W) (m : OrderedMap K V) :
    (m.filterMap f).entries = m.entries.filterMap fun e => (f e.1 e.2).map (e.1, ·) := by
  -- the keys still to come are new to what is built so far
  have hrun : ∀ (entries : List (K × V)) (out : OrderedMap K W),
      (out.entries.map Prod.fst ++ entries.map Prod.fst).Nodup →
      (entries.foldl (fun out e =>
        match f e.1 e.2 with
        | some value => out.insert e.1 value
        | none => out) out).entries =
        out.entries ++ entries.filterMap fun e => (f e.1 e.2).map (e.1, ·) := by
    intro entries
    induction entries with
    | nil =>
        intro out _
        rw [List.foldl_nil, List.filterMap_nil, List.append_nil]
    | cons e entries ih =>
        intro out hnodup
        rw [List.map_cons] at hnodup
        rw [List.foldl_cons, List.filterMap_cons]
        cases hf : f e.1 e.2 with
        | none =>
            exact ih out (hnodup.sublist
              (List.Sublist.append_left (List.sublist_cons_self _ _) _))
        | some value =>
            have hnew : e.1 ∉ out.entries.map Prod.fst := fun hin =>
              (List.nodup_append.mp hnodup).2.2 _ hin _ List.mem_cons_self rfl
            have hset : (out.insert e.1 value).entries = out.entries ++ [(e.1, value)] :=
              set_of_notMem hnew
            refine (ih (out.insert e.1 value) ?_).trans ?_
            · rw [hset, List.map_append, List.append_assoc]
              exact hnodup
            · rw [hset, List.append_assoc]
              rfl
  have h := hrun m.entries empty m.nodup
  exact h

theorem mem_filterMap (f : K → V → Option W) (m : OrderedMap K V) (key : K) (new : W) :
    (key, new) ∈ (m.filterMap f).entries ↔
      ∃ value, (key, value) ∈ m.entries ∧ f key value = some new := by
  rw [entries_filterMap, List.mem_filterMap]
  constructor
  · rintro ⟨⟨k, value⟩, hin, hf⟩
    obtain ⟨w, hw, heq⟩ := Option.map_eq_some_iff.mp hf
    cases heq
    exact ⟨value, hin, hw⟩
  · rintro ⟨value, hin, hf⟩
    exact ⟨(key, value), hin, by rw [hf]; rfl⟩

/-- Values that `f` gives back as they are come through. -/
theorem filterMap_eq_self {f : K → V → Option V} {m : OrderedMap K V}
    (h : ∀ key value, (key, value) ∈ m.entries → f key value = some value) :
    m.filterMap f = m := by
  apply ext
  rw [entries_filterMap]
  calc m.entries.filterMap (fun e => (f e.1 e.2).map (e.1, ·))
      = m.entries.filterMap some := by
        apply List.filterMap_congr
        intro e he
        rw [h e.1 e.2 he]
        rfl
    _ = m.entries := List.filterMap_some

/-! ## Lookups -/

theorem lookup_eq_some_iff {m : OrderedMap K V} {key : K} {value : V} :
    m.lookup key = some value ↔ (key, value) ∈ m.entries := by
  rw [lookup, Option.map_eq_some_iff]
  constructor
  · rintro ⟨⟨k, v⟩, hfind, rfl⟩
    have hk : k = key := by simpa using List.find?_some hfind
    rw [← hk]
    exact List.mem_of_find?_eq_some hfind
  · intro hin
    obtain ⟨e, hfind⟩ : ∃ e, m.entries.find? (fun e => e.1 = key) = some e := by
      apply Option.isSome_iff_exists.mp
      rw [List.find?_isSome]
      exact ⟨(key, value), hin, decide_eq_true rfl⟩
    have hkey : e.1 = key := by simpa using List.find?_some hfind
    have heq := List.inj_on_of_nodup_map m.nodup (List.mem_of_find?_eq_some hfind) hin hkey
    exact ⟨e, hfind, by rw [heq]⟩

theorem lookup_filterMap (f : K → V → Option W) (m : OrderedMap K V) (key : K) :
    (m.filterMap f).lookup key = (m.lookup key).bind (f key) := by
  ext new
  rw [lookup_eq_some_iff, mem_filterMap, Option.bind_eq_some_iff]
  simp only [lookup_eq_some_iff]

theorem filterMap_eq_self_iff {f : K → V → Option V} {m : OrderedMap K V} :
    m.filterMap f = m ↔ ∀ key value, (key, value) ∈ m.entries → f key value = some value := by
  refine ⟨fun hsame key value hin => ?_, filterMap_eq_self⟩
  have hlookup := lookup_eq_some_iff.mpr hin
  calc f key value = (m.lookup key).bind (f key) := by rw [hlookup, Option.bind_some]
    _ = (m.filterMap f).lookup key := (lookup_filterMap f m key).symm
    _ = some value := by rw [hsame, hlookup]

/-! ## Entries with repeated keys -/

theorem mem_of_mem_insertAll {new : List (K × V)} {m : OrderedMap K V} {e : K × V}
    (h : e ∈ (m.insertAll new).entries) : e ∈ new ∨ e ∈ m.entries := by
  induction new generalizing m with
  | nil => exact .inr h
  | cons d new ih =>
      rcases ih h with hnew | hold
      · exact .inl (List.mem_cons_of_mem d hnew)
      · rcases (mem_insert m d.1 d.2 e).mp hold with rfl | ⟨hm, _⟩
        · exact .inl List.mem_cons_self
        · exact .inr hm

theorem mem_keys_insertAll {new : List (K × V)} {m : OrderedMap K V} {k : K} :
    k ∈ (m.insertAll new).entries.map Prod.fst ↔
      k ∈ new.map Prod.fst ∨ k ∈ m.entries.map Prod.fst := by
  induction new generalizing m with
  | nil => simp [insertAll]
  | cons d new ih =>
      have hinsert : k ∈ (m.insert d.1 d.2).entries.map Prod.fst ↔
          k = d.1 ∨ k ∈ m.entries.map Prod.fst := mem_keys_set d.1 k d.2 m.entries
      show k ∈ ((m.insert d.1 d.2).insertAll new).entries.map Prod.fst ↔ _
      rw [ih, hinsert, List.map_cons, List.mem_cons, or_assoc, or_left_comm]

/-- Every entry is found again just where equal keys come with equal values. -/
theorem lookup_insertAll_iff {entries : List (K × V)} :
    (∀ e ∈ entries, ((empty : OrderedMap K V).insertAll entries).lookup e.1 = some e.2) ↔
      ∀ e ∈ entries, ∀ e' ∈ entries, e.1 = e'.1 → e.2 = e'.2 := by
  constructor
  · intro h e he e' he' hkey
    have hsame := h e he
    rw [hkey, h e' he'] at hsame
    exact (Option.some.inj hsame).symm
  · intro h e he
    have hkey : e.1 ∈ ((empty : OrderedMap K V).insertAll entries).entries.map Prod.fst :=
      mem_keys_insertAll.mpr (.inl (List.mem_map_of_mem he))
    obtain ⟨d, hd, hkey⟩ := List.mem_map.mp hkey
    have hin : d ∈ entries := (mem_of_mem_insertAll hd).resolve_right List.not_mem_nil
    rw [lookup_eq_some_iff, ← hkey, h e he d hin hkey.symm]
    exact hd

end OrderedMap

end Dbmaster.Lib
