import Mathlib.Data.List.Nodup
import Mathlib.Data.List.Infix

set_option autoImplicit false

/-!
# The Python values keyio.py handles

Exceptions, the values a key attribute or a JSON member can hold, the `str`
methods the module calls, and `dict` with string keys. Strings are compared and
sliced through their characters, as Python 2's byte-string methods do.
-/
namespace OicKeyio

/-- The exceptions raised in keyio.py or let through from what it calls. -/
inductive Exc where
  | keyError (key : String)
  | typeError (msg : String)
  | attributeError (name : String)
  | indexError
  | valueError
  | ioError (path : String)
  /-- Any exception of the HTTP client: refused connection, timeout, bad URL. -/
  | transport
  /-- `raise Exception(msg)` -/
  | exception (msg : String)
deriving DecidableEq, Repr

def Exc.isKeyError : Exc → Bool
  | .keyError _ => true
  | _ => false

/-- An `M2Crypto.RSA.RSA` object: `handle` is its identity, `n` and `e` its numbers. -/
structure RsaObj where
  handle : Nat
  n : Nat
  e : Nat
deriving DecidableEq, Repr

/-- A value held by a key attribute or by a member of a JSON object. -/
inductive Val where
  | none
  | str (s : String)
  | int (i : Int)
  | rsa (o : RsaObj)
deriving DecidableEq, Repr

namespace Val

/-- Python's truth value, `if x:`. -/
def truthy : Val → Bool
  | .none => false
  | .str s => s ≠ ""
  | .int i => i ≠ 0
  | .rsa _ => true

def pyStr : Val → String
  | .none => "None"
  | .str s => s
  | .int i => toString i
  | .rsa _ => "<M2Crypto.RSA.RSA instance>"

def typeName : Val → String
  | .none => "NoneType"
  | .str _ => "str"
  | .int _ => "int"
  | .rsa _ => "instance"

@[simp] lemma truthy_str (s : String) : (Val.str s).truthy = decide (s ≠ "") := rfl

@[simp] lemma truthy_empty : (Val.str "").truthy = false := rfl

end Val

namespace Py

def lower (s : String) : String := ⟨s.data.map Char.toLower⟩

def startswith (s p : String) : Bool := p.data.isPrefixOf s.data

def endswith (s p : String) : Bool := p.data.isSuffixOf s.data

def isIn (sub s : String) : Bool := decide (sub.data <:+: s.data)

def dropLast (s : String) : String := ⟨s.data.dropLast⟩

def drop (s : String) (n : Nat) : String := ⟨s.data.drop n⟩

lemma startswith_append (p s : String) : startswith (p ++ s) p = true := by
  simp only [startswith, String.data_append, List.isPrefixOf_iff_prefix, List.prefix_append]

lemma drop_append (p s : String) (n : Nat) (h : p.data.length = n) : drop (p ++ s) n = s := by
  simp only [drop, String.data_append, List.drop_left' h]

lemma toNat_ofNat_of_lt (n : Nat) (h : n < 0xD800) : (Char.ofNat n).toNat = n := by
  have hv : n.isValidChar := Or.inl h
  simp only [Char.ofNat, hv, dite_true, Char.ofNatAux, Char.toNat, UInt32.toNat,
    BitVec.toNat_ofNatLt]

lemma toLower_toLower (c : Char) : c.toLower.toLower = c.toLower := by
  unfold Char.toLower
  by_cases h : c.toNat ≥ 65 ∧ c.toNat ≤ 90
  · have h32 := toNat_ofNat_of_lt (c.toNat + 32) (by omega)
    simp only [h, and_self, if_true, h32]
    rw [if_neg (by omega)]
  · simp only [h, if_false]

@[simp] lemma lower_lower (s : String) : lower (lower s) = lower s := by
  simp only [lower, List.map_map, Function.comp_def, toLower_toLower]

/-- The strings `lower` leaves as they are: those `s.lower()` can return. -/
def IsLower (s : String) : Prop := lower s = s

lemma isLower_lower (s : String) : IsLower (lower s) := lower_lower s

end Py

/-- A Python `dict` with string keys: its items in iteration order, each key once. -/
structure Dict (α : Type) where
  entries : List (String × α)
  nodup : (entries.map Prod.fst).Nodup

namespace Dict

variable {α : Type}

@[ext] lemma ext {d e : Dict α} (h : d.entries = e.entries) : d = e := by
  cases d; cases e; cases h; rfl

instance [DecidableEq α] : DecidableEq (Dict α) := fun d e =>
  decidable_of_iff (d.entries = e.entries) ⟨ext, fun h => h ▸ rfl⟩

def empty : Dict α := ⟨[], List.nodup_nil⟩

def keys (d : Dict α) : List String := d.entries.map Prod.fst

def lookup (k : String) : List (String × α) → Option α
  | [] => none
  | p :: ps => if p.1 = k then some p.2 else lookup k ps

/-- `d[k]`, with `none` where Python raises `KeyError`. -/
def get? (d : Dict α) (k : String) : Option α := lookup k d.entries

def contains (d : Dict α) (k : String) : Bool := (d.get? k).isSome

def setEntries (k : String) (v : α) : List (String × α) → List (String × α)
  | [] => [(k, v)]
  | p :: ps => if p.1 = k then (k, v) :: ps else p :: setEntries k v ps

lemma mem_keys_setEntries (k x : String) (v : α) (l : List (String × α)) :
    x ∈ (setEntries k v l).map Prod.fst ↔ x = k ∨ x ∈ l.map Prod.fst := by
  induction l with
  | nil => simp [setEntries]
  | cons p ps ih =>
    by_cases hp : p.1 = k
    · simp [setEntries, hp]
    · simp only [setEntries, hp, if_false, List.map_cons, List.mem_cons, ih]
      exact or_left_comm

lemma nodup_setEntries (k : String) (v : α) (l : List (String × α))
    (h : (l.map Prod.fst).Nodup) : ((setEntries k v l).map Prod.fst).Nodup := by
  induction l with
  | nil => simp [setEntries]
  | cons p ps ih =>
    rw [List.map_cons, List.nodup_cons] at h
    by_cases hp : p.1 = k
    · simpa [setEntries, hp] using h
    · simp only [setEntries, hp, if_false, List.map_cons, List.nodup_cons,
        mem_keys_setEntries, false_or]
      exact ⟨h.1, ih h.2⟩

lemma mem_setEntries {k : String} {v : α} {p : String × α} :
    ∀ {l : List (String × α)}, p ∈ setEntries k v l → p ∈ l ∨ p = (k, v)
  | [], h => .inr (List.mem_singleton.mp h)
  | q :: qs, h => by
    by_cases hq : q.1 = k
    · simp only [setEntries, hq, if_true, List.mem_cons] at h
      rcases h with rfl | h
      · exact .inr rfl
      · exact .inl (List.mem_cons_of_mem _ h)
    · simp only [setEntries, hq, if_false, List.mem_cons] at h
      rcases h with rfl | h
      · exact .inl (List.mem_cons_self _ _)
      · exact (mem_setEntries h).imp_left (List.mem_cons_of_mem _)

lemma setEntries_of_not_mem (k : String) (v : α) (l : List (String × α)) (h : k ∉ l.map Prod.fst) :
    setEntries k v l = l ++ [(k, v)] := by
  induction l with
  | nil => rfl
  | cons p ps ih =>
    simp only [List.map_cons, List.mem_cons, not_or] at h
    simp [setEntries, Ne.symm h.1, ih h.2]

/-- `d[k] = v`: a key already there keeps its place, a new key goes last. -/
def set (d : Dict α) (k : String) (v : α) : Dict α :=
  ⟨setEntries k v d.entries, nodup_setEntries k v d.entries d.nodup⟩

lemma lookup_setEntries (k k' : String) (v : α) (l : List (String × α)) :
    lookup k' (setEntries k v l) = if k = k' then some v else lookup k' l := by
  induction l with
  | nil => simp [setEntries, lookup]
  | cons p ps ih =>
    by_cases hp : p.1 = k
    · by_cases hk : k = k' <;> simp [setEntries, lookup, hp, hk]
    · simp only [setEntries, hp, if_false, lookup, ih]
      by_cases hk : k = k'
      · subst hk; simp [hp]
      · simp [hk]

@[simp] lemma get?_empty (k : String) : (empty : Dict α).get? k = none := rfl

@[simp] lemma get?_set (d : Dict α) (k k' : String) (v : α) :
    (d.set k v).get? k' = if k = k' then some v else d.get? k' :=
  lookup_setEntries k k' v d.entries

lemma setEntries_setEntries (k : String) (v v' : α) (l : List (String × α)) :
    setEntries k v' (setEntries k v l) = setEntries k v' l := by
  induction l with
  | nil => simp [setEntries]
  | cons p ps ih => by_cases hp : p.1 = k <;> simp [setEntries, hp, ih]

@[simp] lemma set_set (d : Dict α) (k : String) (v v' : α) : (d.set k v).set k v' = d.set k v' :=
  ext (setEntries_setEntries k v v' d.entries)

lemma lookup_eq_none (k : String) (l : List (String × α)) :
    lookup k l = none ↔ k ∉ l.map Prod.fst := by
  induction l with
  | nil => simp [lookup]
  | cons p ps ih =>
    by_cases hp : p.1 = k
    · simp [lookup, hp]
    · simp only [lookup, hp, if_false, ih, List.map_cons, List.mem_cons, not_or]
      exact ⟨fun h => ⟨Ne.symm hp, h⟩, And.right⟩

lemma get?_eq_none (d : Dict α) (k : String) : d.get? k = none ↔ k ∉ d.keys :=
  lookup_eq_none k d.entries

lemma mem_of_lookup (k : String) (v : α) (l : List (String × α)) (h : lookup k l = some v) :
    (k, v) ∈ l := by
  induction l with
  | nil => simp [lookup] at h
  | cons p ps ih =>
    by_cases hp : p.1 = k
    · simp only [lookup, hp, if_true, Option.some.injEq] at h
      subst h hp
      exact List.mem_cons_self _ _
    · simp only [lookup, hp, if_false] at h
      exact List.mem_cons_of_mem _ (ih h)

lemma mem_of_get? (d : Dict α) (k : String) (v : α) (h : d.get? k = some v) :
    (k, v) ∈ d.entries :=
  mem_of_lookup k v d.entries h

lemma lookup_of_mem (p : String × α) (l : List (String × α)) (hl : (l.map Prod.fst).Nodup)
    (hp : p ∈ l) : lookup p.1 l = some p.2 := by
  induction l with
  | nil => cases hp
  | cons q qs ih =>
    rw [List.map_cons, List.nodup_cons] at hl
    rcases List.mem_cons.mp hp with rfl | hp
    · simp [lookup]
    · have hne : q.1 ≠ p.1 := fun h => hl.1 (h ▸ List.mem_map_of_mem _ hp)
      simp [lookup, hne, ih hl.2 hp]

lemma get?_of_mem (d : Dict α) (p : String × α) (hp : p ∈ d.entries) : d.get? p.1 = some p.2 :=
  lookup_of_mem p d.entries d.nodup hp

@[simp] lemma contains_iff (d : Dict α) (k : String) : d.contains k = true ↔ k ∈ d.keys := by
  rw [contains, Option.isSome_iff_ne_none, ne_eq, get?_eq_none, not_not]

lemma keys_setEntries (k : String) (v : α) (l : List (String × α)) :
    (setEntries k v l).map Prod.fst =
      if k ∈ l.map Prod.fst then l.map Prod.fst else l.map Prod.fst ++ [k] := by
  induction l with
  | nil => simp [setEntries]
  | cons p ps ih =>
    by_cases hp : p.1 = k
    · simp [setEntries, hp]
    · have hk : k ≠ p.1 := Ne.symm hp
      simp only [setEntries, hp, if_false, List.map_cons, ih, List.mem_cons, hk, false_or]
      split <;> rfl

lemma keys_set (d : Dict α) (k : String) (v : α) :
    (d.set k v).keys = if k ∈ d.keys then d.keys else d.keys ++ [k] :=
  keys_setEntries k v d.entries

lemma set_of_get? (d : Dict α) (k : String) (v : α) (h : d.get? k = some v) :
    d.set k v = d := by
  ext1
  obtain ⟨l, hl⟩ := d
  change setEntries k v l = l
  change lookup k l = some v at h
  induction l with
  | nil => simp [lookup] at h
  | cons p ps ih =>
    by_cases hp : p.1 = k
    · simp only [lookup, hp, if_true, Option.some.injEq] at h
      obtain ⟨k', v'⟩ := p
      simp only at hp h
      simp only [setEntries, hp, h, if_true]
    · simp only [lookup, hp, if_false] at h
      simp only [setEntries, hp, if_false, ih (List.nodup_cons.mp hl).2 h]

lemma ext_lookup : ∀ {l l' : List (String × α)}, (l.map Prod.fst).Nodup →
    l.map Prod.fst = l'.map Prod.fst → (∀ k, lookup k l = lookup k l') → l = l'
  | [], [], _, _, _ => rfl
  | p :: ps, q :: qs, hnd, hk, h => by
    simp only [List.map_cons, List.cons.injEq] at hk
    rw [List.map_cons, List.nodup_cons] at hnd
    have hp := h p.1
    simp only [lookup, if_true, hk.1, Option.some.injEq] at hp
    have hrest : ∀ k, lookup k ps = lookup k qs := fun k => by
      by_cases hkp : p.1 = k
      · subst hkp
        rw [(lookup_eq_none _ _).mpr hnd.1, (lookup_eq_none _ _).mpr (hk.2 ▸ hnd.1)]
      · simpa [lookup, hkp, ← hk.1] using h k
    rw [ext_lookup hnd.2 hk.2 hrest, Prod.ext hk.1 hp]

lemma ext_get? {d e : Dict α} (hk : d.keys = e.keys) (h : ∀ k, d.get? k = e.get? k) : d = e :=
  ext (ext_lookup d.nodup hk h)

/-- The dict with `f` applied to each value, keys in the same order. -/
def map {β : Type} (f : α → β) (d : Dict α) : Dict β :=
  ⟨d.entries.map fun p => (p.1, f p.2), by simpa [Function.comp_def] using d.nodup⟩

variable {β : Type}

lemma lookup_map (f : α → β) (k : String) (l : List (String × α)) :
    lookup k (l.map fun p => (p.1, f p.2)) = (lookup k l).map f := by
  induction l with
  | nil => rfl
  | cons p ps ih => by_cases hp : p.1 = k <;> simp [lookup, hp, ih]

@[simp] lemma get?_map (f : α → β) (d : Dict α) (k : String) : (d.map f).get? k = (d.get? k).map f :=
  lookup_map f k d.entries

@[simp] lemma keys_map (f : α → β) (d : Dict α) : (d.map f).keys = d.keys := by
  simp [keys, map, Function.comp_def]

lemma setEntries_map (f : α → β) (k : String) (v : α) (l : List (String × α)) :
    (setEntries k v l).map (fun p => (p.1, f p.2)) = setEntries k (f v) (l.map fun p => (p.1, f p.2)) := by
  induction l with
  | nil => rfl
  | cons p ps ih => by_cases hp : p.1 = k <;> simp [setEntries, hp, ih]

lemma map_set (f : α → β) (d : Dict α) (k : String) (v : α) : (d.set k v).map f = (d.map f).set k (f v) :=
  ext (setEntries_map f k v d.entries)

end Dict

end OicKeyio
