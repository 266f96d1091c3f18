import OicKeyio.Lookup
import OicKeyio.Revocation

set_option autoImplicit false

/-!
# Jars as Python holds them

A jar's `issuer_keys` maps each issuer to a list object, and a list object holds
bundle objects. Python shares them: `kj["rp"] = kj["op"]` puts one list object
under two issuers, `update` registers the other jar's list objects and extends
lists in place, and `remove_key` and every read change bundle objects in place.
A `Store` holds the objects by id, and the jar methods here change them as
keyio.py does. `Store.view` is the `KeyJar` a store represents; where no list
object is named twice and no bundle object is held twice, the methods of
`KeyJar` compute the view of what these methods leave.
-/
namespace OicKeyio.Objects
open KeyJar Merge Resolution

/-- A jar's `issuer_keys` naming list objects, the list objects, and the bundle objects. -/
structure Store where
  issuerKeys : Dict Nat
  lists : List (List Nat)
  bundles : List KeyBundle
deriving DecidableEq

namespace Store

variable (s : Store)

def list (i : Nat) : List Nat := s.lists.getD i []

def bundle (j : Nat) : KeyBundle := s.bundles.getD j (KeyBundle.fresh {})

def deref (i : Nat) : List KeyBundle := (s.list i).map s.bundle

/-- The jar whose issuers hold the list objects `d` names. -/
def viewOf (d : Dict Nat) : KeyJar := ⟨d.map s.deref⟩

def view : KeyJar := s.viewOf s.issuerKeys

def setList (i : Nat) (l : List Nat) : Store := { s with lists := s.lists.set i l }

def setBundle (j : Nat) (b : KeyBundle) : Store := { s with bundles := s.bundles.set j b }

def newList (l : List Nat) : Store := { s with lists := s.lists ++ [l] }

def newBundle (b : KeyBundle) : Store := { s with bundles := s.bundles ++ [b] }

def setIssuer (issuer : String) (i : Nat) : Store := { s with issuerKeys := s.issuerKeys.set issuer i }

lemma list_setList (i i' : Nat) (l : List Nat) :
    (s.setList i l).list i' = if i = i' ∧ i < s.lists.length then l else s.list i' := by
  simp only [list, setList, List.getD_eq_getElem?_getD, List.getElem?_set]
  by_cases h : i = i'
  · subst h
    by_cases hi : i < s.lists.length
    · simp [hi]
    · simp [hi, List.getElem?_eq_none (not_lt.mp hi)]
  · simp [h]

lemma list_newList (l : List Nat) (i : Nat) :
    (s.newList l).list i = if i = s.lists.length then l else s.list i := by
  simp only [list, newList, List.getD_eq_getElem?_getD]
  rcases lt_trichotomy i s.lists.length with h | rfl | h
  · simp [List.getElem?_append_left h, h.ne]
  · simp
  · simp [h.ne', List.getElem?_eq_none h.le, List.getElem?_eq_none (by simp; omega : (s.lists ++ [l]).length ≤ i)]

lemma bundle_setBundle (j j' : Nat) (b : KeyBundle) :
    (s.setBundle j b).bundle j' = if j = j' ∧ j < s.bundles.length then b else s.bundle j' := by
  simp only [bundle, setBundle, List.getD_eq_getElem?_getD, List.getElem?_set]
  by_cases h : j = j'
  · subst h
    by_cases hj : j < s.bundles.length
    · simp [hj]
    · simp [hj, List.getElem?_eq_none (not_lt.mp hj)]
  · simp [h]

lemma bundle_newBundle (b : KeyBundle) (j : Nat) (hj : j < s.bundles.length) :
    (s.newBundle b).bundle j = s.bundle j := by
  simp [bundle, newBundle, List.getD_eq_getElem?_getD, List.getElem?_append_left hj]

@[simp] lemma bundle_newBundle_self (b : KeyBundle) : (s.newBundle b).bundle s.bundles.length = b := by
  simp [bundle, newBundle, List.getD_eq_getElem?_getD]

lemma deref_newList (l : List Nat) (i : Nat) :
    (s.newList l).deref i = if i = s.lists.length then l.map s.bundle else s.deref i := by
  simp only [deref, list_newList]
  split_ifs <;> rfl

@[simp] lemma list_setBundle (j : Nat) (b : KeyBundle) : (s.setBundle j b).list = s.list := rfl
@[simp] lemma bundle_setList (i : Nat) (l : List Nat) : (s.setList i l).bundle = s.bundle := rfl
@[simp] lemma list_newBundle (b : KeyBundle) : (s.newBundle b).list = s.list := rfl
@[simp] lemma bundle_newList (l : List Nat) : (s.newList l).bundle = s.bundle := rfl
@[simp] lemma list_setIssuer (k : String) (i : Nat) : (s.setIssuer k i).list = s.list := rfl
@[simp] lemma bundle_setIssuer (k : String) (i : Nat) : (s.setIssuer k i).bundle = s.bundle := rfl
@[simp] lemma deref_setIssuer (k : String) (i : Nat) : (s.setIssuer k i).deref = s.deref := rfl
@[simp] lemma issuerKeys_setList (i : Nat) (l : List Nat) : (s.setList i l).issuerKeys = s.issuerKeys := rfl
@[simp] lemma issuerKeys_setBundle (j : Nat) (b : KeyBundle) : (s.setBundle j b).issuerKeys = s.issuerKeys := rfl
@[simp] lemma issuerKeys_newList (l : List Nat) : (s.newList l).issuerKeys = s.issuerKeys := rfl
@[simp] lemma issuerKeys_newBundle (b : KeyBundle) : (s.newBundle b).issuerKeys = s.issuerKeys := rfl
@[simp] lemma issuerKeys_setIssuer (k : String) (i : Nat) : (s.setIssuer k i).issuerKeys = s.issuerKeys.set k i := rfl
@[simp] lemma lists_setIssuer (k : String) (i : Nat) : (s.setIssuer k i).lists = s.lists := rfl
@[simp] lemma lists_newList (l : List Nat) : (s.newList l).lists = s.lists ++ [l] := rfl
@[simp] lemma lists_setList (i : Nat) (l : List Nat) : (s.setList i l).lists = s.lists.set i l := rfl
@[simp] lemma lists_newBundle (b : KeyBundle) : (s.newBundle b).lists = s.lists := rfl

@[simp] lemma viewOf_get? (d : Dict Nat) (k : String) :
    (s.viewOf d).issuerKeys.get? k = (d.get? k).map s.deref := Dict.get?_map _ _ _

@[simp] lemma viewOf_keys (d : Dict Nat) : (s.viewOf d).issuerKeys.keys = d.keys := Dict.keys_map _ _

@[simp] lemma view_get? (k : String) : s.view.issuerKeys.get? k = (s.issuerKeys.get? k).map s.deref :=
  Dict.get?_map _ _ _

@[simp] lemma view_keys : s.view.issuerKeys.keys = s.issuerKeys.keys := Dict.keys_map _ _

end Store

/-- The list objects the issuers of `d` name, in order. -/
def refs (d : Dict Nat) : List Nat := d.entries.map Prod.snd

/-- Every list object an issuer names exists, and so does every bundle object listed. -/
def Store.Valid (s : Store) : Prop :=
  (∀ i ∈ refs s.issuerKeys, i < s.lists.length) ∧ ∀ l ∈ s.lists, ∀ j ∈ l, j < s.bundles.length

instance (s : Store) : Decidable s.Valid := inferInstanceAs (Decidable (_ ∧ _))

lemma mem_refs {d : Dict Nat} {k : String} {i : Nat} (h : d.get? k = some i) : i ∈ refs d :=
  List.mem_map_of_mem _ (Dict.mem_of_get? d k i h)

lemma eq_of_refs_nodup {d : Dict Nat} (hnd : (refs d).Nodup) {k k' : String} {i : Nat}
    (hk : d.get? k = some i) (hk' : d.get? k' = some i) : k = k' :=
  congrArg Prod.fst (List.inj_on_of_nodup_map hnd (Dict.mem_of_get? d k i hk)
    (Dict.mem_of_get? d k' i hk') rfl)

lemma Store.Valid.lt_bundles {s : Store} (hs : s.Valid) {i j : Nat} (hj : j ∈ s.list i) : j < s.bundles.length := by
  unfold Store.list at hj
  rw [List.getD_eq_getElem?_getD] at hj
  cases hi : s.lists[i]? with
  | none => simp [hi] at hj
  | some l => rw [hi, Option.getD_some] at hj; exact hs.2 l (List.getElem?_mem hi) j hj

lemma viewOf_congr {s s' : Store} {d : Dict Nat} (h : ∀ i ∈ refs d, s'.deref i = s.deref i) :
    s'.viewOf d = s.viewOf d := by
  simp only [Store.viewOf, KeyJar.mk.injEq]
  ext1
  exact List.map_congr_left fun p hp => by rw [h p.2 (List.mem_map_of_mem _ hp)]

/-- A view is fixed by its issuers and what each names. -/
lemma view_ext {s : Store} {kj : KeyJar} (hk : s.issuerKeys.keys = kj.issuerKeys.keys)
    (h : ∀ k, (s.issuerKeys.get? k).map s.deref = kj.issuerKeys.get? k) : s.view = kj := by
  obtain ⟨d⟩ := kj
  simp only [Store.view, Store.viewOf, KeyJar.mk.injEq]
  exact Dict.ext_get? (by simpa using hk) fun k => by simpa using h k

@[simp] lemma Store.view_contains (s : Store) (k : String) :
    s.view.issuerKeys.contains k = s.issuerKeys.contains k := by
  simp [Dict.contains]

/-- A method's outcome on a store, read on its view. -/
def viewResult : EStateM.Result Exc Store Unit → EStateM.Result Exc KeyJar Unit
  | .ok a s => .ok a s.view
  | .error e s => .error e s.view

def init : Store := ⟨Dict.empty, [], []⟩

section Methods

variable (lib : Lib)

def addKb (issuer : String) (j : Nat) (s : Store) : Store :=
  match s.issuerKeys.get? issuer with
  | some i => s.setList i (s.list i ++ [j])
  | none => (s.newList [j]).setIssuer issuer s.lists.length

def alloc (b : KeyBundle) : EStateM Exc Store Nat := fun s => .ok s.bundles.length (s.newBundle b)

def add (fs : Fs) (issuer url : String) : EStateM Exc Store Nat := do
  let kc ← MonadExcept.ofExcept (bundleFor lib fs url)
  let j ← alloc kc
  modify (addKb issuer j)
  return j

def appendHmac (fs : Fs) (key : Val) : List String → EStateM Exc Store Unit
  | [] => pure ()
  | use :: rest => fun s =>
    match s.issuerKeys.get? "" with
    | none => .error (.keyError "") s
    | some i =>
      match hmacBundle lib fs key use with
      | .error e => .error e s
      | .ok kb => appendHmac fs key rest ((s.newBundle kb).setList i (s.list i ++ [s.bundles.length]))

def addHmac (fs : Fs) (issuer : String) (key : Val) (usage : List String) : EStateM Exc Store Unit := do
  modify fun s => if s.issuerKeys.contains issuer then s else (s.newList []).setIssuer issuer s.lists.length
  appendHmac lib fs key usage

def setItem (s : Store) (issuer : String) (i : Nat) : Store := s.setIssuer issuer i

def getItem (s : Store) (issuer : String) : Except Exc Nat :=
  match s.issuerKeys.get? issuer with
  | some i => .ok i
  | none => .error (.keyError issuer)

def readRefs {α : Type} (read : EStateM Exc KeyBundle α) : List Nat → EStateM Exc Store (List α)
  | [] => pure []
  | j :: js => fun s =>
    match read (s.bundle j) with
    | .error e b => .error e (s.setBundle j b)
    | .ok a b =>
      match readRefs read js (s.setBundle j b) with
      | .error e s' => .error e s'
      | .ok as s' => .ok (a :: as) s'

def get (w : World) (use keyType issuer : String) : EStateM Exc Store (Dict (List Val)) := fun s =>
  match lookupIssuer s.view issuer with
  | .error e => .error e s
  | .ok none => .ok Dict.empty s
  | .ok (some j) =>
    let bs := ((s.issuerKeys.get? j).map s.list).getD []
    if bs.isEmpty then .ok Dict.empty s
    else
      let read := if keyType ≠ "" then KeyBundle.get lib w keyType else KeyBundle.keys lib w
      match readRefs read bs s with
      | .ok kss s' => .ok (collect (normUse use) keyType kss.flatten) s'
      | .error e s' => .error e s'

def verifyKeys (w : World) (part : String) : EStateM Exc Store (Dict (List Val)) :=
  xKeys (get lib w "ver") part

def decryptKeys (w : World) (part : String) : EStateM Exc Store (Dict (List Val)) :=
  xKeys (get lib w "dec") part

/-- The loop of `remove_key` over the list object it removes emptied bundle objects from. -/
def removeLoop (typ : String) (val : Val) (idx : Nat) (l : List Nat) (bs : List KeyBundle) :
    List Nat × List KeyBundle :=
  if h : idx < l.length then
    let j := l.get ⟨idx, h⟩
    let kc := (bs.getD j (KeyBundle.fresh {})).remove typ val
    if kc._keys.length = 0 then removeLoop typ val (idx + 1) (l.erase j) (bs.set j kc)
    else removeLoop typ val (idx + 1) l (bs.set j kc)
  else (l, bs)
termination_by l.length - idx
decreasing_by
  all_goals simp_wf
  · have := List.length_erase_le (l.get ⟨idx, h⟩) l
    omega
  · omega

def removeKey (issuer typ : String) (val : Val) (s : Store) : Store :=
  match s.issuerKeys.get? issuer with
  | none => s
  | some i =>
    let r := removeLoop typ val 0 (s.list i) s.bundles
    { s.setList i r.1 with bundles := r.2 }

/-- One item of `update`'s loop: extend the list object in place, or register the other. -/
def updateEntry (s : Store) (p : String × Nat) : Store :=
  match s.issuerKeys.get? p.1 with
  | some i => s.setList i (s.list i ++ s.list p.2)
  | none => s.setIssuer p.1 p.2

def update (other : Dict Nat) (s : Store) : Store := other.entries.foldl updateEntry s

/-- The first lines of `load_keys`: a new empty list object, unless the issuer is kept. -/
def resetIssuer (issuer : String) (replace : Bool) (s : Store) : Store :=
  if !s.issuerKeys.contains issuer || replace then (s.newList []).setIssuer issuer s.lists.length else s

def loadKeys (fs : Fs) (pcr : Entry) (issuer : String) (replace : Bool) : EStateM Exc Store Unit := do
  modify (resetIssuer issuer replace)
  exceptKeyError do
    match pcr.get? "jwks_uri" with
    | none => throw (.keyError "jwks_uri")
    | some (.str url) => discard (add lib fs issuer url)
    | some v => throw (.typeError ("argument of type \x27" ++ v.typeName ++ "\x27 is not iterable"))

end Methods

lemma refs_set_of_none {d : Dict Nat} {k : String} (i : Nat) (h : d.get? k = none) :
    refs (d.set k i) = refs d ++ [i] := by
  simp [refs, Dict.set, Dict.setEntries_of_not_mem k i d.entries ((Dict.get?_eq_none d k).mp h)]

lemma mem_refs_set {d : Dict Nat} {k : String} {v i : Nat} (h : i ∈ refs (d.set k v)) :
    i ∈ refs d ∨ i = v := by
  obtain ⟨p, hp, rfl⟩ := List.mem_map.mp h
  rcases Dict.mem_setEntries hp with hp | rfl
  · exact .inl (List.mem_map_of_mem _ hp)
  · exact .inr rfl

lemma updateEntry_view (s : Store) (p : String × Nat) (hnd : (refs s.issuerKeys).Nodup)
    (hin : ∀ i ∈ refs s.issuerKeys, i < s.lists.length) :
    (updateEntry s p).view =
      ⟨s.view.issuerKeys.set p.1 ((s.view.issuerKeys.get? p.1).getD [] ++ s.deref p.2)⟩ := by
  unfold updateEntry
  cases hk : s.issuerKeys.get? p.1 with
  | none => simp [Store.view, Store.viewOf, Dict.map_set, hk]
  | some iA =>
    have hiA := hin iA (mem_refs hk)
    have hmem : p.1 ∈ s.issuerKeys.keys := (Dict.contains_iff _ _).mp (by simp [Dict.contains, hk])
    simp only [Store.view, Store.viewOf, KeyJar.mk.injEq]
    refine Dict.ext_get? (by simp [Dict.keys_set, hmem]) fun k => ?_
    by_cases hkk : p.1 = k
    · subst hkk
      simp [hk, Store.deref, Store.list_setList, hiA]
    · rw [Dict.get?_set, if_neg hkk, Dict.get?_map, Dict.get?_map]
      cases hk' : s.issuerKeys.get? k with
      | none => simp [hk']
      | some i =>
        have hne : i ≠ iA := fun h => hkk (eq_of_refs_nodup hnd hk (h ▸ hk'))
        simp [Store.deref, Store.list_setList, hk', Ne.symm hne]

lemma updateEntry_frame (s : Store) (p : String × Nat) :
    (updateEntry s p).lists.length = s.lists.length ∧
      (∀ i, i ∉ refs s.issuerKeys → (updateEntry s p).deref i = s.deref i) ∧
      (refs (updateEntry s p).issuerKeys = refs s.issuerKeys ∨
        refs (updateEntry s p).issuerKeys = refs s.issuerKeys ++ [p.2]) := by
  unfold updateEntry
  cases hk : s.issuerKeys.get? p.1 with
  | none => exact ⟨rfl, fun _ _ => rfl, .inr (by simpa using refs_set_of_none p.2 hk)⟩
  | some iA =>
    refine ⟨by simp, fun i hi => ?_, .inl rfl⟩
    have hne : iA ≠ i := fun h => hi (h ▸ mem_refs hk)
    simp [Store.deref, Store.list_setList, hne]

lemma foldl_updateEntry_view (es : List (String × Nat)) (s : Store)
    (hnd : (refs s.issuerKeys ++ es.map Prod.snd).Nodup)
    (hin : ∀ i ∈ refs s.issuerKeys ++ es.map Prod.snd, i < s.lists.length) :
    (es.foldl updateEntry s).view =
      (es.map fun p => (p.1, s.deref p.2)).foldl
        (fun kj p => ⟨kj.issuerKeys.set p.1 ((kj.issuerKeys.get? p.1).getD [] ++ p.2)⟩) s.view := by
  induction es generalizing s with
  | nil => rfl
  | cons p es ih =>
    obtain ⟨hlen, hderef, hrefs⟩ := updateEntry_frame s p
    have hnd' : (refs (updateEntry s p).issuerKeys ++ es.map Prod.snd).Nodup := by
      rcases hrefs with h | h <;> rw [h]
      · exact (List.nodup_middle.mp hnd).of_cons
      · simpa using hnd
    have hin' : ∀ i ∈ refs (updateEntry s p).issuerKeys ++ es.map Prod.snd,
        i < (updateEntry s p).lists.length := fun i hi => by
      rw [hlen]
      refine hin i ?_
      rcases hrefs with h | h <;> rw [h] at hi <;> simp at hi ⊢ <;> tauto
    have hes : es.map (fun q => (q.1, (updateEntry s p).deref q.2)) = es.map fun q => (q.1, s.deref q.2) :=
      List.map_congr_left fun q hq => by
        rw [hderef q.2 fun h => ?_]
        exact (List.nodup_append.mp hnd).2.2 h (List.mem_cons_of_mem _ (List.mem_map_of_mem _ hq))
    rw [List.foldl_cons, ih _ hnd' hin', hes,
      updateEntry_view s p (List.nodup_append.mp hnd).1 fun i hi => hin i (List.mem_append_left _ hi)]
    rfl

/-- On list objects named once across both jars, `A.update(B)` reads as the value merge. -/
lemma view_update (b : Dict Nat) (s : Store) (hnd : (refs s.issuerKeys ++ refs b).Nodup)
    (hin : ∀ i ∈ refs s.issuerKeys ++ refs b, i < s.lists.length) :
    (update b s).view = s.view.update (s.viewOf b) :=
  foldl_updateEntry_view b.entries s hnd hin

/-- On unshared list objects, `A.update(B)` gives each issuer `A`'s bundles, then `B`'s. -/
theorem update_lists_concat (b : Dict Nat) (s : Store) (hnd : (refs s.issuerKeys ++ refs b).Nodup)
    (hin : ∀ i ∈ refs s.issuerKeys ++ refs b, i < s.lists.length) (k : String) :
    listAt (update b s).view.issuerKeys k = listAt s.view.issuerKeys k ++ listAt (s.viewOf b).issuerKeys k ∧
      (k ∈ (update b s).issuerKeys.keys ↔ k ∈ s.issuerKeys.keys ∨ k ∈ b.keys) := by
  have hv := view_update b s hnd hin
  refine ⟨by rw [hv, listAt_update], ?_⟩
  rw [← Store.view_keys, hv, mem_keys_update, Store.view_keys, Store.viewOf_keys]

open Refresh in
def secretBundle (secret : String) : KeyBundle :=
  { selfBundle with _keys := [{ sampleKey with key := .str secret }] }

def separateStore : Store :=
  ⟨Dict.ofList [("https://op.example", 0), ("https://rp.example", 2)], [[0], [1], [2]],
    [secretBundle "a", secretBundle "b", secretBundle "c"]⟩

def otherIssuers : Dict Nat := Dict.ofList [("https://op.example", 1)]

theorem update_lists_concat_at_pair :
    (refs separateStore.issuerKeys ++ refs otherIssuers).Nodup ∧
      (∀ i ∈ refs separateStore.issuerKeys ++ refs otherIssuers, i < separateStore.lists.length) ∧
      listAt (update otherIssuers separateStore).view.issuerKeys "https://op.example" =
        listAt separateStore.view.issuerKeys "https://op.example" ++
          listAt (separateStore.viewOf otherIssuers).issuerKeys "https://op.example" :=
  ⟨by decide, by decide,
    (update_lists_concat otherIssuers separateStore (by decide) (by decide) "https://op.example").1⟩

section Reads

variable (lib : Lib)

end Reads

lemma getD_set_of_ne {α : Type} (l : List α) (j j' : Nat) (a d : α) (h : j ≠ j') :
    (l.set j a).getD j' d = l.getD j' d := by
  simp [List.getD_eq_getElem?_getD, List.getElem?_set, h]

/-- The loop of `remove_key` changes no bundle object outside its list object. -/
lemma removeLoop_frame (typ : String) (val : Val) (idx : Nat) (l : List Nat) (bs : List KeyBundle) :
    (removeLoop typ val idx l bs).1.Sublist l ∧
      ∀ j ∉ l, (removeLoop typ val idx l bs).2.getD j (KeyBundle.fresh {}) =
        bs.getD j (KeyBundle.fresh {}) := by
  induction idx, l, bs using removeLoop.induct typ val with
  | case1 idx l bs h j kc hk ih =>
    rw [removeLoop, dif_pos h]
    dsimp only
    rw [if_pos hk]
    have hmem : j ∈ l := List.get_mem l idx h
    refine ⟨ih.1.trans (List.erase_sublist _ _), fun x hx => ?_⟩
    rw [ih.2 x fun h' => hx ((List.erase_sublist _ _).subset h'),
      getD_set_of_ne bs j x kc _ fun h' => hx (h' ▸ hmem)]
  | case2 idx l bs h j kc hk ih =>
    rw [removeLoop, dif_pos h]
    dsimp only
    rw [if_neg hk]
    have hmem : j ∈ l := List.get_mem l idx h
    exact ⟨ih.1, fun x hx => by rw [ih.2 x hx, getD_set_of_ne bs j x kc _ fun h' => hx (h' ▸ hmem)]⟩
  | case3 idx l bs h =>
    rw [removeLoop, dif_neg h]
    exact ⟨List.Sublist.refl _, fun _ _ => rfl⟩

@[simp] lemma removeKey_issuerKeys (issuer typ : String) (val : Val) (s : Store) :
    (removeKey issuer typ val s).issuerKeys = s.issuerKeys := by
  unfold removeKey
  split <;> rfl

lemma removeKey_deref_other (issuer typ : String) (val : Val) (s : Store) {i i' : Nat}
    (hi : s.issuerKeys.get? issuer = some i) (hne : i' ≠ i) (hdisj : ∀ j ∈ s.list i', j ∉ s.list i) :
    (removeKey issuer typ val s).deref i' = s.deref i' := by
  have hbs := (removeLoop_frame typ val 0 (s.list i) s.bundles).2
  simp only [removeKey, hi]
  change ((s.setList i (removeLoop typ val 0 (s.list i) s.bundles).1).list i').map
      (fun j => (removeLoop typ val 0 (s.list i) s.bundles).2.getD j (KeyBundle.fresh {})) = s.deref i'
  rw [Store.list_setList, if_neg fun h => hne h.1.symm]
  exact List.map_congr_left fun j hj => hbs j (hdisj j hj)

/-- `remove_key` leaves every issuer whose list object shares nothing with the issuer's. -/
theorem remove_key_keeps_separate (issuer other typ : String) (val : Val) (s : Store)
    (hsep : ∀ i i', s.issuerKeys.get? issuer = some i → s.issuerKeys.get? other = some i' →
      i' ≠ i ∧ ∀ j ∈ s.list i', j ∉ s.list i) :
    (removeKey issuer typ val s).view.issuerKeys.get? other = s.view.issuerKeys.get? other := by
  cases hi : s.issuerKeys.get? issuer with
  | none => simp [removeKey, hi]
  | some i =>
    simp only [Store.view_get?, removeKey_issuerKeys]
    cases hi' : s.issuerKeys.get? other with
    | none => rfl
    | some i' =>
      obtain ⟨hne, hdisj⟩ := hsep i i' hi hi'
      simp only [Option.map_some', removeKey_deref_other issuer typ val s hi hne hdisj]

def separateBundles : Store :=
  ⟨Dict.ofList [("https://op.example", 0), ("https://rp.example", 1)], [[0], [1]],
    [Revocation.revokedBundle, Revocation.revokedBundle]⟩

theorem remove_key_keeps_separate_at_pair :
    (∀ i i', separateBundles.issuerKeys.get? "https://op.example" = some i →
      separateBundles.issuerKeys.get? "https://rp.example" = some i' →
        i' ≠ i ∧ ∀ j ∈ separateBundles.list i', j ∉ separateBundles.list i) ∧
      (removeKey "https://op.example" "RSA" (.rsa Revocation.revokedObj) separateBundles).view.issuerKeys.get?
          "https://rp.example" = separateBundles.view.issuerKeys.get? "https://rp.example" :=
  have hsep : ∀ i i', separateBundles.issuerKeys.get? "https://op.example" = some i →
      separateBundles.issuerKeys.get? "https://rp.example" = some i' →
        i' ≠ i ∧ ∀ j ∈ separateBundles.list i', j ∉ separateBundles.list i := fun i i' hi hi' => by
    cases hi; cases hi'; decide
  ⟨hsep, remove_key_keeps_separate _ _ _ _ _ hsep⟩

lemma map_eraseIdx {α β : Type} (f : α → β) (l : List α) (i : Nat) :
    (l.eraseIdx i).map f = (l.map f).eraseIdx i := by
  simp [List.eraseIdx_eq_take_drop_succ, List.map_take, List.map_drop]

/-- On a list object holding each bundle once, `remove_key`'s loop is the value loop. -/
lemma removeLoop_refines (typ : String) (val : Val) (idx : Nat) (l : List Nat) (bs : List KeyBundle)
    (hnd : l.Nodup) (hlt : ∀ j ∈ l, j < bs.length) :
    (removeLoop typ val idx l bs).1.map (fun j => (removeLoop typ val idx l bs).2.getD j (KeyBundle.fresh {})) =
      KeyJar.removeLoop typ val idx (l.map fun j => bs.getD j (KeyBundle.fresh {})) := by
  induction idx, l, bs using removeLoop.induct typ val with
  | case1 idx l bs h j kc hk ih =>
    have hmap : (l.erase j).map (fun x => (bs.set j kc).getD x (KeyBundle.fresh {})) =
        (l.map fun x => bs.getD x (KeyBundle.fresh {})).eraseIdx idx := by
      have hj : j ∉ l.erase j := hnd.not_mem_erase
      rw [List.map_congr_left fun x hx => getD_set_of_ne bs j x kc _ (ne_of_mem_of_not_mem hx hj).symm,
        hnd.erase_get ⟨idx, h⟩, map_eraseIdx]
    rw [removeLoop, dif_pos h]
    dsimp only
    rw [if_pos hk, ih (hnd.sublist (List.erase_sublist _ _)) fun x hx => by
      rw [List.length_set]; exact hlt x ((List.erase_sublist _ _).subset hx), hmap]
    conv_rhs => rw [KeyJar.removeLoop, dif_pos (by simpa using h)]
    simp only [List.get_eq_getElem, List.getElem_map]
    exact (if_pos hk).symm
  | case2 idx l bs h j kc hk ih =>
    have hj : l[idx] < bs.length := hlt _ (List.getElem_mem h)
    have hmap : l.map (fun x => (bs.set j kc).getD x (KeyBundle.fresh {})) =
        (l.map fun x => bs.getD x (KeyBundle.fresh {})).set idx kc := by
      refine List.ext_getElem (by simp) fun n h1 _ => ?_
      have hn' : n < l.length := by simpa using h1
      simp only [List.getElem_map, List.getElem_set]
      by_cases hn : idx = n
      · subst hn
        simp [List.getD_eq_getElem?_getD, hj, j]
      · rw [if_neg hn, getD_set_of_ne bs j l[n] kc _ fun h' => hn ((hnd.getElem_inj_iff).mp h')]
    rw [removeLoop, dif_pos h]
    dsimp only
    rw [if_neg hk, ih hnd fun x hx => by rw [List.length_set]; exact hlt x hx, hmap]
    conv_rhs => rw [KeyJar.removeLoop, dif_pos (by simpa using h)]
    simp only [List.get_eq_getElem, List.getElem_map]
    exact (if_neg hk).symm
  | case3 idx l bs h =>
    rw [removeLoop, dif_neg h, KeyJar.removeLoop, dif_neg (by simpa using h)]

/-- Where no list or bundle object is shared, `remove_key` reads as the value model's. -/
lemma view_removeKey (issuer typ : String) (val : Val) (s : Store) (hs : s.Valid)
    (hsep : ∀ i, s.issuerKeys.get? issuer = some i → (s.list i).Nodup ∧
      ∀ other i', other ≠ issuer → s.issuerKeys.get? other = some i' →
        i' ≠ i ∧ ∀ j ∈ s.list i', j ∉ s.list i) :
    (removeKey issuer typ val s).view = KeyJar.removeKey issuer typ val s.view := by
  cases hi : s.issuerKeys.get? issuer with
  | none => simp [removeKey, KeyJar.removeKey, hi]
  | some i =>
    obtain ⟨hnd, hother⟩ := hsep i hi
    have hmem : issuer ∈ s.issuerKeys.keys := (Dict.contains_iff _ _).mp (by simp [Dict.contains, hi])
    have hself : (removeKey issuer typ val s).deref i = KeyJar.removeLoop typ val 0 (s.deref i) := by
      simp only [removeKey, hi]
      change ((s.setList i (removeLoop typ val 0 (s.list i) s.bundles).1).list i).map
        (fun j => (removeLoop typ val 0 (s.list i) s.bundles).2.getD j (KeyBundle.fresh {})) = _
      rw [Store.list_setList, if_pos ⟨rfl, hs.1 i (mem_refs hi)⟩]
      exact removeLoop_refines typ val 0 _ _ hnd fun j hj => hs.lt_bundles hj
    simp only [KeyJar.removeKey, Store.view_get?, hi, Option.map_some']
    refine view_ext (by simp [Dict.keys_set, hmem]) fun k => ?_
    rw [removeKey_issuerKeys, Dict.get?_set]
    by_cases hk : issuer = k
    · subst hk
      simp [hi, hself]
    · rw [if_neg hk, Store.view_get?]
      cases hk' : s.issuerKeys.get? k with
      | none => rfl
      | some i' =>
        obtain ⟨hne, hdisj⟩ := hother k i' (Ne.symm hk) hk'
        simp [removeKey_deref_other issuer typ val s hi hne hdisj]

section Loading

variable (lib : Lib)

lemma loadKeys_eq (fs : Fs) (pcr : Entry) (issuer : String) (replace : Bool) (s : Store) :
    loadKeys lib fs pcr issuer replace s =
      match pcr.get? "jwks_uri" with
      | none => .ok () (resetIssuer issuer replace s)
      | some (.str url) =>
        match bundleFor lib fs url with
        | .ok kb => .ok () (addKb issuer (resetIssuer issuer replace s).bundles.length
            ((resetIssuer issuer replace s).newBundle kb))
        | .error e =>
          if e.isKeyError then .ok () (resetIssuer issuer replace s)
          else .error e (resetIssuer issuer replace s)
      | some v =>
        .error (.typeError ("argument of type \x27" ++ v.typeName ++ "\x27 is not iterable"))
          (resetIssuer issuer replace s) := by
  simp only [loadKeys, run_bind, run_modify, exceptKeyError]
  rcases pcr.get? "jwks_uri" with _ | ((_ | url | _ | _)) <;> try rfl
  simp only [add, run_bind, run_modify]
  cases bundleFor lib fs url <;> rfl

lemma Store.Valid.reset {s : Store} (hs : s.Valid) (issuer : String) (replace : Bool) :
    (resetIssuer issuer replace s).Valid := by
  unfold Objects.resetIssuer
  split_ifs
  · refine ⟨fun i hi => ?_, fun l hl j hj => ?_⟩
    · rcases mem_refs_set hi with hi | rfl
      · simpa using Nat.lt_succ_of_lt (hs.1 i hi)
      · simp
    · simp only [Store.lists_setIssuer, Store.lists_newList, List.mem_append, List.mem_singleton] at hl
      rcases hl with hl | rfl
      · exact hs.2 l hl j hj
      · cases hj
  · exact hs

lemma reset_view_self (s : Store) (issuer : String) (replace : Bool) :
    (resetIssuer issuer replace s).view.issuerKeys.get? issuer =
      some (if s.issuerKeys.contains issuer && !replace then listAt s.view.issuerKeys issuer else []) := by
  unfold resetIssuer
  cases hk : s.issuerKeys.get? issuer with
  | none =>
    have hc : s.issuerKeys.contains issuer = false := by simp [Dict.contains, hk]
    simp [hc, Store.deref_newList]
  | some i =>
    have hc : s.issuerKeys.contains issuer = true := by simp [Dict.contains, hk]
    cases replace
    · simp [hc, hk, listAt]
    · simp [Store.deref_newList]

lemma reset_view_other (s : Store) (hs : s.Valid) (issuer other : String) (replace : Bool)
    (h : other ≠ issuer) :
    (resetIssuer issuer replace s).view.issuerKeys.get? other = s.view.issuerKeys.get? other := by
  unfold resetIssuer
  split_ifs
  · simp only [Store.view_get?, Store.issuerKeys_setIssuer, Dict.get?_set, if_neg (Ne.symm h),
      Store.deref_setIssuer]
    cases hk : s.issuerKeys.get? other with
    | none => simp [hk]
    | some r => simp [Store.deref_newList, hk, (hs.1 r (mem_refs hk)).ne]
  · rfl

lemma addKb_new_view (s : Store) (hs : s.Valid) (issuer : String) (i : Nat)
    (hi : s.issuerKeys.get? issuer = some i) (kb : KeyBundle) (k : String) :
    (addKb issuer s.bundles.length (s.newBundle kb)).view.issuerKeys.get? k =
      (s.issuerKeys.get? k).map fun r => if r = i then s.deref i ++ [kb] else s.deref r := by
  have hiL := hs.1 i (mem_refs hi)
  have hderef : ∀ r, (s.newBundle kb).deref r = s.deref r := fun r =>
    List.map_congr_left fun j hj => s.bundle_newBundle kb j (hs.lt_bundles hj)
  simp only [addKb, Store.issuerKeys_newBundle, hi, Store.view_get?, Store.issuerKeys_setList]
  cases s.issuerKeys.get? k with
  | none => rfl
  | some r =>
    simp only [Option.map_some', Option.some.injEq]
    by_cases hr : r = i
    · subst hr
      simp only [Store.deref, Store.list_setList, Store.lists_newBundle, hiL, and_self, if_true,
        Store.bundle_setList, List.map_append, List.map_singleton, Store.bundle_newBundle_self,
        Store.list_newBundle]
      rw [← Store.list_newBundle s kb, ← Store.deref, hderef]; rfl
    · simp only [Store.deref, Store.list_setList, Ne.symm hr, false_and, if_false, hr,
        Store.bundle_setList]
      exact hderef r

end Loading

lemma Store.Valid.addKb_new {s : Store} (hs : s.Valid) {issuer : String} {i : Nat}
    (hi : s.issuerKeys.get? issuer = some i) (kb : KeyBundle) :
    (addKb issuer s.bundles.length (s.newBundle kb)).Valid := by
  simp only [addKb, Store.issuerKeys_newBundle, hi]
  refine ⟨fun r hr => by simpa using hs.1 r hr, fun l hl j hj => ?_⟩
  simp only [Store.lists_setList, Store.lists_newBundle] at hl
  simp only [Store.setList, Store.newBundle, List.length_append, List.length_singleton]
  rcases List.mem_or_eq_of_mem_set hl with hl | rfl
  · exact Nat.lt_succ_of_lt (hs.2 l hl j hj)
  · rcases List.mem_append.mp hj with hj | hj
    · exact Nat.lt_succ_of_lt (hs.lt_bundles hj)
    · simp at hj; omega

lemma view_addKb_new (s : Store) (hs : s.Valid) (hnd : (refs s.issuerKeys).Nodup) (issuer : String)
    (i : Nat) (hi : s.issuerKeys.get? issuer = some i) (kb : KeyBundle) :
    (addKb issuer s.bundles.length (s.newBundle kb)).view =
      ⟨s.view.issuerKeys.set issuer (s.deref i ++ [kb])⟩ := by
  have hmem : issuer ∈ s.issuerKeys.keys := (Dict.contains_iff _ _).mp (by simp [Dict.contains, hi])
  refine view_ext (by simp [addKb, hi, Dict.keys_set, hmem]) fun k => ?_
  rw [← Store.view_get?, addKb_new_view s hs issuer i hi kb k, Dict.get?_set]
  by_cases hk : issuer = k
  · subst hk
    simp [hi]
  · rw [if_neg hk, Store.view_get?]
    cases hk' : s.issuerKeys.get? k with
    | none => rfl
    | some r =>
      have hr : r ≠ i := fun h => hk (eq_of_refs_nodup hnd hi (h ▸ hk'))
      simp [hr]

section Hmac

variable (lib : Lib) (fs : Fs) (key : Val)

lemma view_appendHmac :
    ∀ (usage : List String) (s : Store), s.Valid → (refs s.issuerKeys).Nodup →
      viewResult (appendHmac lib fs key usage s) = KeyJar.appendHmac lib fs key usage s.view
  | [], s, _, _ => rfl
  | use :: rest, s, hs, hnd => by
    simp only [appendHmac, KeyJar.appendHmac, Store.view_get?]
    cases hi : s.issuerKeys.get? "" with
    | none => rfl
    | some i =>
      simp only [Option.map_some']
      cases hmacBundle lib fs key use with
      | error e => rfl
      | ok kb =>
        dsimp only
        have hstep : (s.newBundle kb).setList i (s.list i ++ [s.bundles.length]) =
            addKb "" s.bundles.length (s.newBundle kb) := by
          simp [addKb, hi]
        rw [hstep, view_appendHmac rest _ (hs.addKb_new hi kb) (by simpa [addKb, hi] using hnd),
          view_addKb_new s hs hnd "" i hi kb]

/-- Where no list object is named twice, `add_hmac` reads as the value model's. -/
lemma view_addHmac (issuer : String) (usage : List String) (s : Store) (hs : s.Valid)
    (hnd : (refs s.issuerKeys).Nodup) :
    viewResult (addHmac lib fs issuer key usage s) = KeyJar.addHmac lib fs issuer key usage s.view := by
  simp only [addHmac, KeyJar.addHmac, run_bind, run_modify, Store.view_contains]
  split_ifs with hc
  · exact view_appendHmac lib fs key usage s hs hnd
  · have hnone : s.issuerKeys.get? issuer = none := by simpa [Dict.contains] using hc
    have hreset : (s.newList []).setIssuer issuer s.lists.length = resetIssuer issuer false s := by
      simp [resetIssuer, hc]
    have hnd' : (refs (resetIssuer issuer false s).issuerKeys).Nodup := by
      rw [← hreset, Store.issuerKeys_setIssuer, Store.issuerKeys_newList, refs_set_of_none _ hnone]
      exact hnd.append (List.nodup_singleton _) fun j hj hj' => by
        cases List.mem_singleton.mp hj'; exact lt_irrefl _ (hs.1 _ hj)
    rw [hreset, view_appendHmac lib fs key usage _ (hs.reset issuer false) hnd']
    congr 1
    refine view_ext ?_ fun k => ?_
    · simp [resetIssuer, hc, Dict.keys_set]
    · rw [← Store.view_get?, Dict.get?_set]
      by_cases hk : issuer = k
      · subst hk
        rw [if_pos rfl, reset_view_self]
        simp [hc]
      · rw [if_neg hk, reset_view_other s hs issuer k false (Ne.symm hk)]

end Hmac

end OicKeyio.Objects
