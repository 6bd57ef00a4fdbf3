/-
JSON values, and codecs that carry the proof that what they write reads back.

* `Json`, `Json.WellFormed`: values with their members in the order written, and
  those no object of which has two members of one name;
* `Json.nat?`, `Json.str?`, `Json.list?`, `Json.member?`, `Json.table?`: readers;
* `Codec`: a writer and a reader with their laws, for the data that they carry;
* `Codec.list`, `Codec.table`: the codecs of lists and of tables, from those of
  their elements.
-/
import Mathlib.Data.List.AList
import Mathlib.Tactic

namespace Wire

/-- A JSON value, of which the only numbers are natural. -/
inductive Json where
  | num (n : ℕ)
  | str (text : String)
  | arr (values : List Json)
  | obj (members : List (String × Json))

/-- No object has two members of one name. -/
inductive Json.WellFormed : Json → Prop
  | num (n : ℕ) : WellFormed (.num n)
  | str (text : String) : WellFormed (.str text)
  | arr {values : List Json} (each : ∀ value ∈ values, WellFormed value) : WellFormed (.arr values)
  | obj {members : List (String × Json)} (names : (members.map Prod.fst).Nodup)
      (each : ∀ member ∈ members, WellFormed member.2) : WellFormed (.obj members)

/-! ### Readers -/

namespace Json

def nat? : Json → Option ℕ
  | .num n => some n
  | .str _ | .arr _ | .obj _ => none

def str? : Json → Option String
  | .str text => some text
  | .num _ | .arr _ | .obj _ => none

variable {α κ β : Type}

def list? (read : Json → Option α) : Json → Option (List α)
  | .arr values => values.mapM read
  | .num _ | .str _ | .obj _ => none

def member? (name : String) : Json → Option Json
  | .obj members => members.lookup name
  | .num _ | .str _ | .arr _ => none

/-- Read an object whose names are keys. -/
def table? [DecidableEq κ] (readKey : String → Option κ) (read : Json → Option β) :
    Json → Option (AList fun _ : κ => β)
  | .obj members => do
      let entries ← members.mapM fun member => do
        return (⟨← readKey member.1, ← read member.2⟩ : (_ : κ) × β)
      return entries.toAList
  | .num _ | .str _ | .arr _ => none

end Json

/-! ### Codecs -/

/-- A writer and a reader of JSON: what is written of the data that they carry
is well formed and reads back. -/
structure Codec (α : Type) where
  write : α → Json
  read : Json → Option α
  carries : α → Prop
  read_write : ∀ {a}, carries a → read (write a) = some a
  wellFormed : ∀ {a}, carries a → (write a).WellFormed

variable {α κ β : Type}

/-- Reading each of what was written of a list gives the list. -/
lemma mapM_eq_some {γ : Type} {write : α → γ} {read : γ → Option β} {f : α → β} {l : List α}
    (h : ∀ a ∈ l, read (write a) = some (f a)) : (l.map write).mapM read = some (l.map f) := by
  induction l with
  | nil => rfl
  | cons a l ih =>
      have hrest := ih fun a' ha' => h a' (List.mem_cons_of_mem a ha')
      simp [List.mapM_cons, h a List.mem_cons_self, hrest]

namespace Codec

/-- The codec of lists of what a codec carries. -/
def list (codec : Codec α) : Codec (List α) where
  write l := .arr (l.map codec.write)
  read := Json.list? codec.read
  carries l := ∀ a ∈ l, codec.carries a
  read_write {l} h := by
    rw [Json.list?, mapM_eq_some fun a ha => codec.read_write (h a ha), List.map_id']
  wellFormed {l} h := by
    refine .arr fun value hvalue => ?_
    obtain ⟨a, ha, rfl⟩ := List.mem_map.mp hvalue
    exact codec.wellFormed (h a ha)

/-- A table is that of its entries. -/
lemma toAList_entries [DecidableEq κ] (table : AList fun _ : κ => β) :
    table.entries.toAList = table := by
  refine AList.ext ?_
  have hnodup := table.nodupKeys
  generalize table.entries = entries at hnodup
  rw [AList.entries_toAList]
  induction entries with
  | nil => rfl
  | cons entry entries ih =>
      obtain ⟨hnew, hrest⟩ := List.nodupKeys_cons.mp hnodup
      rw [List.dedupKeys_cons, ih hrest, List.kinsert_def, List.kerase_of_notMem_keys hnew]

/-- The codec of tables, whose keys are written as names: of those whose names
read back as the keys. -/
def table [DecidableEq κ] (writeKey : κ → String) (readKey : String → Option κ)
    (codec : Codec β) : Codec (AList fun _ : κ => β) where
  write table := .obj (table.entries.map fun entry => (writeKey entry.1, codec.write entry.2))
  read := Json.table? readKey codec.read
  carries table := ∀ entry ∈ table.entries,
    readKey (writeKey entry.1) = some entry.1 ∧ codec.carries entry.2
  read_write {table} h := by
    have hentries : (table.entries.map fun entry => (writeKey entry.1, codec.write entry.2)).mapM
        (fun member => do return (⟨← readKey member.1, ← codec.read member.2⟩ : (_ : κ) × β))
        = some (table.entries.map id) := by
      refine mapM_eq_some fun entry hentry => ?_
      obtain ⟨hkey, hvalue⟩ := h entry hentry
      simp [hkey, codec.read_write hvalue]
    rw [Json.table?, hentries, List.map_id]
    exact congrArg some (toAList_entries table)
  wellFormed {table} h := by
    refine .obj ?_ fun member hmember => ?_
    · -- a key is what its name reads back as
      have hnodup : (table.keys.map writeKey).Nodup := by
        refine List.Nodup.map_on (fun a ha b hb heq => ?_) table.keys_nodup
        obtain ⟨entry, hentry, rfl⟩ := List.mem_map.mp ha
        obtain ⟨entry', hentry', rfl⟩ := List.mem_map.mp hb
        have hread := (h entry hentry).1
        rw [heq, (h entry' hentry').1] at hread
        exact (Option.some.inj hread).symm
      rw [List.map_map]
      rw [AList.keys, List.keys, List.map_map] at hnodup
      exact hnodup
    · obtain ⟨entry, hentry, rfl⟩ := List.mem_map.mp hmember
      exact codec.wellFormed (h entry hentry).2

end Codec

end Wire
