import Mathlib.Algebra.Group.Nat.Defs
import Mathlib.Data.List.Lex
import Mathlib.Data.List.Sort
import Mathlib.Order.Fin.Basic
import SFrameRatchet.Collections

/-! Strings and plain objects of the scripting runtime. A string is a sequence of
UTF-16 code units and is compared by them. An object literal lists its integer
keys first, in ascending order, and inherits the properties of
`Object.prototype`, among them the accessor that swallows what is assigned to
`__proto__`. -/
namespace SFrameRatchet.JsObject
open Collections

abbrev JsString := List (Fin 0x10000)

/-- The code units of a text; a character outside the basic plane takes two. -/
def utf16 (text : List Char) : JsString := text.flatMap fun char =>
  if char.toNat < 0x10000 then [Fin.ofNat 0x10000 char.toNat]
  else [Fin.ofNat 0x10000 (0xd800 + (char.toNat - 0x10000) / 0x400),
    Fin.ofNat 0x10000 (0xdc00 + (char.toNat - 0x10000) % 0x400)]

/-- A code unit as a character, which half of a surrogate pair is not. -/
def unitChar (unit : Fin 0x10000) : Char := if unit.val.isValidChar then Char.ofNat unit.val else Char.ofNat 0xfffd

/-- The text of a string; a lone surrogate is replaced. -/
def fromUtf16 : JsString → List Char
  | [] => []
  | [unit] => [unitChar unit]
  | high :: low :: rest =>
    if 0xd800 ≤ high.val ∧ high.val < 0xdc00 ∧ 0xdc00 ≤ low.val ∧ low.val < 0xe000 then
      Char.ofNat (0x10000 + (high.val - 0xd800) * 0x400 + (low.val - 0xdc00)) :: fromUtf16 rest
    else unitChar high :: fromUtf16 (low :: rest)

/-- `Array.prototype.sort` without a comparison function. -/
def sort (strings : List JsString) : List JsString := strings.insertionSort (· ≤ ·)

theorem sort_perm (strings : List JsString) : (sort strings).Perm strings := List.perm_insertionSort _ _

theorem sort_pairwise (strings : List JsString) : (sort strings).Pairwise (· ≤ ·) :=
  List.pairwise_insertionSort _ _

/-- The least string comes first. -/
theorem sort_head {least : JsString} {strings : List JsString} (below : ∀ other ∈ strings, least ≤ other) :
    (sort (least :: strings)).head? = some least := by
  have first (sorted : List JsString) (below : ∀ other ∈ sorted, least ≤ other) :
      (sorted.orderedInsert (· ≤ ·) least).head? = some least := by
    cases sorted with
    | nil => rfl
    | cons other rest => simp [below other List.mem_cons_self]
  exact first (sort strings) fun other member => below other ((sort_perm strings).mem_iff.mp member)

def protoName : JsString := utf16 ['_', '_', 'p', 'r', 'o', 't', 'o', '_', '_']

/-- The names every object literal inherits. -/
def objectPrototype : List JsString :=
  ["__proto__", "constructor", "hasOwnProperty", "isPrototypeOf", "propertyIsEnumerable", "toLocaleString",
    "toString", "valueOf", "__defineGetter__", "__defineSetter__", "__lookupGetter__", "__lookupSetter__"].map
    fun name => utf16 name.toList

def digit (unit : Fin 0x10000) : Option ℕ :=
  if 48 ≤ unit.val ∧ unit.val ≤ 57 then some (unit.val - 48) else none

/-- The array index that a string is the canonical decimal of. -/
def arrayIndex : JsString → Option ℕ
  | [] => none
  | [unit] => digit unit
  | lead :: rest =>
    if lead.val = 48 then none
    else ((lead :: rest).foldlM (fun value unit => (digit unit).map (10 * value + ·)) 0).filter (· < 2 ^ 32 - 1)

/-- A new key is listed before the keys it precedes and after all others. -/
def Precedes (key other : JsString) : Prop :=
  match arrayIndex key, arrayIndex other with
  | some index, some next => index < next
  | some _, none => True
  | none, _ => False

instance (key other : JsString) : Decidable (Precedes key other) := by
  unfold Precedes
  split <;> infer_instance

/-- The own properties of an object literal, in the order `Object.keys` lists them. -/
abbrev PlainObject (V : Type) := OrderedMap JsString V

/-- What reading a property gives. -/
inductive Property (V : Type) where
  | own (value : V)
  | inherited
  | undefined
  deriving DecidableEq

namespace PlainObject
variable {V : Type} {obj : PlainObject V} {key other : JsString} {value : V}

/-- `CreateDataProperty`. -/
def define (obj : PlainObject V) (key : JsString) (value : V) : PlainObject V :=
  if held : key ∈ obj.keys then obj.set key value
  else ⟨obj.entries.orderedInsert (fun entry next => Precedes entry.1 next.1) (key, value), by
    have listed := (List.perm_orderedInsert (fun entry next => Precedes entry.1 next.1) (key, value)
      obj.entries).map Prod.fst
    exact listed.nodup_iff.mpr (List.nodup_cons.mpr ⟨held, obj.nodup⟩)⟩

/-- `obj[key] = value`. -/
def assign (obj : PlainObject V) (key : JsString) (value : V) : PlainObject V :=
  if key = protoName ∧ key ∉ obj.keys then obj else define obj key value

/-- `obj[key]`. -/
def get (obj : PlainObject V) (key : JsString) : Property V :=
  match obj.get? key with
  | some value => .own value
  | none => if key ∈ objectPrototype then .inherited else .undefined

/-- `key in obj`. -/
def hasProperty (obj : PlainObject V) (key : JsString) : Bool := obj.has key || decide (key ∈ objectPrototype)

theorem hasProperty_iff : hasProperty obj key = true ↔ get obj key ≠ .undefined := by
  unfold hasProperty get OrderedMap.has
  cases obj.get? key with
  | some value => simp
  | none => by_cases named : key ∈ objectPrototype <;> simp [named]

theorem get_own : get obj key = .own value ↔ obj.get? key = some value := by
  unfold get
  cases obj.get? key with
  | some held => simp
  | none => by_cases named : key ∈ objectPrototype <;> simp [named]

/-- A property is listed once, among those that were there. -/
theorem define_perm (absent : key ∉ obj.keys) :
    (define obj key value).entries.Perm ((key, value) :: obj.entries) := by
  unfold define
  rw [dif_neg absent]
  exact List.perm_orderedInsert _ _ _

theorem assign_perm (absent : key ∉ obj.keys) (apart : key ≠ protoName) :
    (assign obj key value).entries.Perm ((key, value) :: obj.entries) := by
  unfold assign
  rw [if_neg (fun both => apart both.1)]
  exact define_perm absent

/-- What is assigned to `__proto__` is lost. -/
theorem assign_proto (absent : protoName ∉ obj.keys) : assign obj protoName value = obj := by
  unfold assign
  rw [if_pos ⟨rfl, absent⟩]

end PlainObject
end SFrameRatchet.JsObject
