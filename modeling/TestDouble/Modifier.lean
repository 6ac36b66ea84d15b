/-!
# Modifiers

The twelve modifiers of a Java declaration and sets of them. A set forgets order and repetition;
it lists its members in the order in which Java style guides print them.
-/

namespace TestDouble

/-- A modifier keyword. The order of the constructors is the order of printing. -/
inductive Modifier where
  | publicAccess
  | protectedAccess
  | privateAccess
  | abstractMember
  | defaultMethod
  | staticMember
  | finalMember
  | transientField
  | volatileField
  | synchronizedMethod
  | nativeMethod
  | strictFloating
  deriving DecidableEq, Repr, Inhabited

namespace Modifier

/-- All modifiers, in the order of printing. -/
def all : List Modifier :=
  [publicAccess, protectedAccess, privateAccess, abstractMember, defaultMethod, staticMember,
   finalMember, transientField, volatileField, synchronizedMethod, nativeMethod, strictFloating]

/-- The keyword as it is written in a source. -/
def keyword : Modifier → String
  | publicAccess => "public"
  | protectedAccess => "protected"
  | privateAccess => "private"
  | abstractMember => "abstract"
  | defaultMethod => "default"
  | staticMember => "static"
  | finalMember => "final"
  | transientField => "transient"
  | volatileField => "volatile"
  | synchronizedMethod => "synchronized"
  | nativeMethod => "native"
  | strictFloating => "strictfp"

/-- The modifier's name in listings. -/
def name : Modifier → String
  | publicAccess => "Public"
  | protectedAccess => "Protected"
  | privateAccess => "Private"
  | abstractMember => "Abstract"
  | defaultMethod => "Default"
  | staticMember => "Static"
  | finalMember => "Final"
  | transientField => "Transient"
  | volatileField => "Volatile"
  | synchronizedMethod => "Synchronized"
  | nativeMethod => "Native"
  | strictFloating => "Strictfp"

/-- The modifier that a keyword denotes. -/
def ofKeyword? (word : String) : Option Modifier :=
  all.find? (·.keyword = word)

/-- The place of the modifier in the order of printing. -/
def index : Modifier → Nat
  | publicAccess => 0
  | protectedAccess => 1
  | privateAccess => 2
  | abstractMember => 3
  | defaultMethod => 4
  | staticMember => 5
  | finalMember => 6
  | transientField => 7
  | volatileField => 8
  | synchronizedMethod => 9
  | nativeMethod => 10
  | strictFloating => 11

theorem index_lt (m : Modifier) : m.index < 12 := by cases m <;> decide

theorem index_inj {m n : Modifier} (same : m.index = n.index) : m = n := by
  cases m <;> cases n <;> first | rfl | exact absurd same (by decide)

end Modifier

/-- A set of modifiers: one bit for each, so two sets with the same members are equal. -/
structure ModifierSet where
  bits : BitVec 12
  deriving DecidableEq, Repr

namespace ModifierSet

/-- The set without members. -/
def empty : ModifierSet := ⟨0#12⟩

instance : Inhabited ModifierSet := ⟨empty⟩

/-- The set of one modifier. -/
def single (m : Modifier) : ModifierSet := ⟨BitVec.twoPow 12 m.index⟩

/-- Whether a modifier is a member. -/
def contains (s : ModifierSet) (m : Modifier) : Bool := s.bits.getLsbD m.index

/-- The set with a modifier added. -/
def insert (s : ModifierSet) (m : Modifier) : ModifierSet := ⟨s.bits ||| (single m).bits⟩

/-- The set with a modifier taken out. -/
def erase (s : ModifierSet) (m : Modifier) : ModifierSet := ⟨s.bits &&& ~~~(single m).bits⟩

/-- The modifiers that occur in a list. -/
def ofList (ms : List Modifier) : ModifierSet := ms.foldl insert empty

/-- The members in the order of printing. -/
def toList (s : ModifierSet) : List Modifier := Modifier.all.filter s.contains

/-- The number of members. -/
def size (s : ModifierSet) : Nat := s.toList.length

/-- Whether there is no member. -/
def isEmpty (s : ModifierSet) : Bool := s == empty

/-- The keywords in the order of printing, one blank between two. -/
def text (s : ModifierSet) : String := String.intercalate " " (s.toList.map Modifier.keyword)

/-- The members as a listing: `\x7bPublic, Static\x7d`. -/
def listing (s : ModifierSet) : String :=
  "\x7b" ++ String.intercalate ", " (s.toList.map Modifier.name) ++ "\x7d"

/-- The set of a member that everyone may call: `public` in place of `private` and `protected`,
all else kept. -/
def opened (s : ModifierSet) : ModifierSet :=
  ((s.erase .privateAccess).erase .protectedAccess).insert .publicAccess

theorem getLsbD_single (m n : Modifier) :
    (single m).bits.getLsbD n.index = decide (m = n) := by
  have bound := Modifier.index_lt m
  have same : (m.index = n.index) ↔ m = n := ⟨Modifier.index_inj, fun h => h ▸ rfl⟩
  simp [single, BitVec.getLsbD_twoPow, bound, same]

@[simp] theorem contains_insert (s : ModifierSet) (m n : Modifier) :
    (s.insert m).contains n = (s.contains n || decide (m = n)) := by
  simp [contains, insert, BitVec.getLsbD_or, getLsbD_single]

@[simp] theorem contains_erase (s : ModifierSet) (m n : Modifier) :
    (s.erase m).contains n = (s.contains n && !decide (m = n)) := by
  simp only [contains, erase, BitVec.getLsbD_and, BitVec.getLsbD_not, getLsbD_single,
    Modifier.index_lt, decide_true, Bool.true_and]

@[simp] theorem contains_empty (m : Modifier) : empty.contains m = false := by
  simp [contains, empty]

/-- A set is determined by its members. -/
theorem ext_contains {s t : ModifierSet} (same : ∀ m, s.contains m = t.contains m) : s = t := by
  obtain ⟨a⟩ := s
  obtain ⟨b⟩ := t
  congr 1
  apply BitVec.eq_of_getLsbD_eq
  intro i bound
  have listed : ∃ m : Modifier, m.index = i := by
    have all : ∀ j : Fin 12, ∃ m ∈ Modifier.all, m.index = j.val := by decide
    obtain ⟨m, _, place⟩ := all ⟨i, bound⟩
    exact ⟨m, place⟩
  obtain ⟨m, rfl⟩ := listed
  exact same m

end ModifierSet

end TestDouble
