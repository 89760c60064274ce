import Mathlib.Data.List.Basic
import Mathlib.Logic.Function.Basic
/-!
# Files under names

A directory of inodes, some of which have a name.  Who has opened a file knows its inode, and
writes to that under whatever name it has by then.
-/

namespace Dbmaster.Lib.Files

/-- No inode has two names. -/
structure Directory (Name β : Type*) where
  inodes : List (List β)
  names : Name → Option Nat
  valid : ∀ n i, names n = some i → i < inodes.length
  distinct : ∀ n m i, names n = some i → names m = some i → n = m

namespace Directory

variable {Name β : Type*}

def empty : Directory Name β where
  inodes := []
  names _ := none
  valid := by
    intro n i h
    cases h
  distinct := by
    intro n m i h
    cases h

def read (d : Directory Name β) (n : Name) : Option (List β) :=
  (d.names n).bind fun i => d.inodes[i]?

/-- Under the name is an inode with these bytes. -/
structure Holds (d : Directory Name β) (n : Name) (i : Nat) (bytes : List β) : Prop where
  named : d.names n = some i
  content : d.inodes[i]? = some bytes

theorem read_eq_some_iff {d : Directory Name β} {n : Name} {bytes : List β} :
    d.read n = some bytes ↔ ∃ i, d.Holds n i bytes := by
  rw [read, Option.bind_eq_some_iff]
  constructor
  · rintro ⟨i, hname, hcontent⟩
    exact ⟨i, hname, hcontent⟩
  · rintro ⟨i, hname, hcontent⟩
    exact ⟨i, hname, hcontent⟩

theorem Holds.read {d : Directory Name β} {n : Name} {i : Nat} {bytes : List β}
    (h : d.Holds n i bytes) : d.read n = some bytes := read_eq_some_iff.mpr ⟨i, h⟩

theorem read_congr {d d' : Directory Name β} {n : Name} (hnames : d'.names n = d.names n)
    (hcontent : ∀ i, d.names n = some i → d'.inodes[i]? = d.inodes[i]?) :
    d'.read n = d.read n := by
  unfold read
  rw [hnames]
  cases hname : d.names n with
  | none => rfl
  | some i => exact hcontent i hname

/-! ## Writing -/

section Write

variable [Inhabited β]

/-- Bytes put in place of those from an offset on; a gap before them is filled. -/
def overwrite (bytes : List β) (offset : Nat) (chunk : List β) : List β :=
  bytes.take offset ++ List.replicate (offset - bytes.length) default ++ chunk ++
    bytes.drop (offset + chunk.length)

theorem overwrite_end (bytes chunk : List β) :
    overwrite bytes bytes.length chunk = bytes ++ chunk := by
  unfold overwrite
  rw [List.take_length, Nat.sub_self, List.replicate_zero, List.append_nil,
    List.drop_eq_nil_of_le (Nat.le_add_right _ _), List.append_nil]

/-- The next part of what is written, put where the parts before it end. -/
theorem overwrite_next (bytes : List β) {offset : Nat} (count : Nat)
    (h : offset ≤ bytes.length) :
    overwrite (bytes.take offset) offset ((bytes.drop offset).take count) =
      bytes.take (offset + ((bytes.drop offset).take count).length) := by
  have hlength : (bytes.take offset).length = offset := by
    rw [List.length_take, Nat.min_eq_left h]
  have hend := overwrite_end (bytes.take offset) ((bytes.drop offset).take count)
  rw [hlength] at hend
  rw [hend, List.take_add, ← List.prefix_iff_eq_take.mp (List.take_prefix count _)]

omit [Inhabited β] in
theorem next_le (bytes : List β) {offset : Nat} (count : Nat) (h : offset ≤ bytes.length) :
    offset + ((bytes.drop offset).take count).length ≤ bytes.length := by
  rw [List.length_take, List.length_drop]
  omega

/-- Writes through an open file; an inode that does not exist is left alone. -/
def writeAt (d : Directory Name β) (i offset : Nat) (chunk : List β) : Directory Name β where
  inodes := d.inodes.modify i fun bytes => overwrite bytes offset chunk
  names := d.names
  valid := by
    intro n j h
    rw [List.length_modify]
    exact d.valid n j h
  distinct := d.distinct

@[simp] theorem names_writeAt (d : Directory Name β) (i offset : Nat) (chunk : List β) :
    (d.writeAt i offset chunk).names = d.names := rfl

theorem content_writeAt_ne (d : Directory Name β) {i j : Nat} (hne : i ≠ j) (offset : Nat)
    (chunk : List β) : (d.writeAt i offset chunk).inodes[j]? = d.inodes[j]? := by
  show (d.inodes.modify i _)[j]? = _
  rw [List.getElem?_modify]
  cases d.inodes[j]? with
  | none => rfl
  | some bytes => exact congrArg some (if_neg hne)

theorem read_writeAt_ne {d : Directory Name β} {n : Name} {i : Nat} (hne : d.names n ≠ some i)
    (offset : Nat) (chunk : List β) : (d.writeAt i offset chunk).read n = d.read n := by
  apply read_congr (names_writeAt d i offset chunk ▸ rfl)
  intro j hj
  apply content_writeAt_ne
  rintro rfl
  exact hne hj

theorem Holds.writeAt {d : Directory Name β} {n : Name} {i : Nat} {bytes : List β}
    (h : d.Holds n i bytes) (offset : Nat) (chunk : List β) :
    (d.writeAt i offset chunk).Holds n i (overwrite bytes offset chunk) where
  named := h.named
  content := by
    show (d.inodes.modify i _)[i]? = _
    rw [List.getElem?_modify_eq, h.content]
    rfl

end Write

/-! ## Names -/

/-- The inode of a file that is opened for writing: the one that has the name, or a new one. -/
def target (d : Directory Name β) (n : Name) : Nat := (d.names n).getD d.inodes.length

/-- The inodes when that file has been opened. -/
def emptied (d : Directory Name β) (n : Name) : List (List β) :=
  match d.names n with
  | some i => d.inodes.set i []
  | none => d.inodes ++ [[]]

theorem length_le_emptied (d : Directory Name β) (n : Name) :
    d.inodes.length ≤ (d.emptied n).length := by
  unfold emptied
  split
  · exact Nat.le_of_eq List.length_set.symm
  · rw [List.length_append]
    exact Nat.le_add_right _ _

theorem emptied_target (d : Directory Name β) (n : Name) :
    (d.emptied n)[d.target n]? = some [] := by
  unfold emptied target
  cases hname : d.names n with
  | some i => exact List.getElem?_set_self (d.valid n i hname)
  | none => exact List.getElem?_concat_length

theorem emptied_ne (d : Directory Name β) {n m : Name} (hne : m ≠ n) {j : Nat}
    (hj : d.names m = some j) : (d.emptied n)[j]? = d.inodes[j]? := by
  unfold emptied
  cases hname : d.names n with
  | some i =>
      refine List.getElem?_set_ne ?_
      rintro rfl
      exact hne (d.distinct m n i hj hname)
  | none => exact List.getElem?_append_left (d.valid m j hj)

/-- A new inode is beyond those that have a name. -/
theorem target_ne (d : Directory Name β) {n m : Name} (hne : m ≠ n) :
    d.names m ≠ some (d.target n) := by
  intro h
  unfold target at h
  cases hname : d.names n with
  | some i =>
      rw [hname, Option.getD_some] at h
      exact hne (d.distinct m n i h hname)
  | none =>
      rw [hname, Option.getD_none] at h
      exact Nat.lt_irrefl _ (d.valid m _ h)

section Names

variable [DecidableEq Name]

/-- `File::create`: an existing file is cut to nothing, and keeps its inode. -/
def create (d : Directory Name β) (n : Name) : Directory Name β where
  inodes := d.emptied n
  names := Function.update d.names n (some (d.target n))
  valid := by
    intro m i h
    rw [Function.update_apply] at h
    split_ifs at h
    · cases h
      exact (List.getElem?_eq_some_iff.mp (d.emptied_target n)).1
    · exact Nat.lt_of_lt_of_le (d.valid m i h) (d.length_le_emptied n)
  distinct := by
    intro m m' i h h'
    rw [Function.update_apply] at h h'
    split_ifs at h h' with hm hm' hm'
    · rw [hm, hm']
    · cases h
      exact absurd h' (d.target_ne hm')
    · cases h'
      exact absurd h (d.target_ne hm)
    · exact d.distinct m m' i h h'

theorem names_create_ne (d : Directory Name β) {n m : Name} (hne : m ≠ n) :
    (d.create n).names m = d.names m := Function.update_of_ne hne _ _

theorem holds_create (d : Directory Name β) (n : Name) :
    (d.create n).Holds n (d.target n) [] where
  named := Function.update_self _ _ _
  content := d.emptied_target n

theorem read_create_ne (d : Directory Name β) {n m : Name} (hne : m ≠ n) :
    (d.create n).read m = d.read m :=
  read_congr (names_create_ne d hne) fun _ hj => d.emptied_ne hne hj

/-- `fs::rename` on a file system: what had the new name loses it. -/
def rename (d : Directory Name β) (old new : Name) : Directory Name β where
  inodes := d.inodes
  names := Function.update (Function.update d.names old none) new (d.names old)
  valid := by
    intro m i h
    rw [Function.update_apply, Function.update_apply] at h
    split_ifs at h
    · exact d.valid old i h
    · exact d.valid m i h
  distinct := by
    intro m m' i h h'
    rw [Function.update_apply, Function.update_apply] at h h'
    split_ifs at h h' with hm hm' hm' hm'
    · rw [hm, hm']
    · exact absurd (d.distinct m' old i h' h) (by assumption)
    · exact absurd (d.distinct m old i h h') (by assumption)
    · exact d.distinct m m' i h h'

theorem Holds.rename {d : Directory Name β} {old : Name} {i : Nat} {bytes : List β}
    (h : d.Holds old i bytes) (new : Name) : (d.rename old new).Holds new i bytes where
  named := (Function.update_self _ _ _).trans h.named
  content := h.content

end Names

end Directory

end Dbmaster.Lib.Files
