import OicKeyio.KeyJar
import OicKeyio.Refresh

set_option autoImplicit false

/-!
# Resolving an issuer's keys

`KeyJar.get` on a jar whose bundles are local: reads refresh nothing, so `get`
is a function of the entry it picks. The entry is the one keyio.py's `get`
reads (the issuer, else its slash-toggled form), except that the self issuer
`""` has no fallback and raises when missing, and that `"/"` toggles to `""`.
The keys are those whose `use` is the normalised usage, exactly. `match_owner`
resolves a URL to the first issuer it starts with.
-/
namespace OicKeyio.Resolution
open KeyJar

variable (lib : Lib)

/-- Every bundle of the jar is local, so that no read refreshes it. -/
def Local (kj : KeyJar) : Prop := ∀ p ∈ kj.issuerKeys.entries, ∀ b ∈ p.2, b.remote = false

instance (kj : KeyJar) : Decidable (Local kj) := inferInstanceAs (Decidable (∀ p ∈ _, _))

lemma Local.get? {kj : KeyJar} (h : Local kj) (j : String) (bs : List KeyBundle)
    (hj : kj.issuerKeys.get? j = some bs) : ∀ b ∈ bs, b.remote = false :=
  h _ (Dict.mem_of_get? _ _ _ hj)

def toggleSlash (issuer : String) : String :=
  if Py.endswith issuer "/" then Py.dropLast issuer else issuer ++ "/"

/-- The entry `get` reads: the issuer, else for a non-empty issuer its slash-toggled form. -/
def resolveIssuer (kj : KeyJar) (issuer : String) : Option String :=
  if issuer ∈ kj.issuerKeys.keys then some issuer
  else if issuer ≠ "" ∧ toggleSlash issuer ∈ kj.issuerKeys.keys then some (toggleSlash issuer)
  else none

/-- What `get` returns when the entry it reads holds the bundles `bs`. -/
def resolveIn (use keyType : String) (bs : List KeyBundle) : Dict (List Val) :=
  if bs.isEmpty then Dict.empty
  else collect (normUse use) keyType (bs.flatMap fun b => KeyBundle.select keyType b._keys)

theorem lookupIssuer_eq (kj : KeyJar) (issuer : String) :
    kj.lookupIssuer issuer =
      if issuer = "" ∧ "" ∉ kj.issuerKeys.keys then .error (.keyError "")
      else .ok (resolveIssuer kj issuer) := by
  unfold lookupIssuer resolveIssuer toggleSlash
  by_cases hI : issuer = ""
  · subst hI
    by_cases h : "" ∈ kj.issuerKeys.keys <;> simp [h]
  · by_cases hs : Py.endswith issuer "/" <;> simp [hI, hs] <;> split_ifs <;> simp_all

lemma readAll_pure {α : Type} (read : EStateM Exc KeyBundle α) (f : KeyBundle → α)
    (bs : List KeyBundle) (h : ∀ b ∈ bs, read b = .ok (f b) b) :
    readAll read bs = .ok (bs.map f) bs := by
  induction bs with
  | nil => rfl
  | cons b bs ih =>
    simp only [List.mem_cons, forall_eq_or_imp] at h
    simp only [readAll, h.1, ih h.2, List.map_cons]

theorem get_local (w : World) (use keyType issuer : String) (kj : KeyJar) (hloc : Local kj) :
    KeyJar.get lib w use keyType issuer kj =
      match kj.lookupIssuer issuer with
      | .error e => .error e kj
      | .ok none => .ok Dict.empty kj
      | .ok (some j) => .ok (resolveIn use keyType ((kj.issuerKeys.get? j).getD [])) kj := by
  unfold KeyJar.get
  rcases kj.lookupIssuer issuer with e | _ | j
  · rfl
  · rfl
  · dsimp only
    rcases hj : kj.issuerKeys.get? j with _ | bs
    · rfl
    · have hb := hloc.get? j bs hj
      simp only [Option.getD_some, resolveIn]
      split_ifs with hk ht
      · rfl
      · rw [readAll_pure _ (fun b => KeyBundle.select keyType b._keys) bs
          (fun b hm => KeyBundle.get_local lib w keyType b (hb b hm))]
        simp [Dict.set_of_get? _ _ _ hj, List.flatMap]
      · rw [readAll_pure _ (·._keys) bs (fun b hm => KeyBundle.keys_local lib w b (hb b hm))]
        simp [Dict.set_of_get? _ _ _ hj, List.flatMap, KeyBundle.select, not_not.mp ht]

lemma get_resolved (w : World) (use keyType issuer : String) (kj : KeyJar) (hloc : Local kj) :
    KeyJar.get lib w use keyType issuer kj =
      if issuer = "" ∧ "" ∉ kj.issuerKeys.keys then .error (.keyError "") kj
      else .ok ((resolveIssuer kj issuer).elim Dict.empty fun j =>
        resolveIn use keyType ((kj.issuerKeys.get? j).getD [])) kj := by
  rw [get_local lib w use keyType issuer kj hloc, lookupIssuer_eq]
  split_ifs <;> cases resolveIssuer kj issuer <;> rfl

/-- `get` on local bundles raises only for an unregistered `""`, else reads its entry. -/
theorem get_issuer_resolution (w : World) (use keyType issuer : String) (kj : KeyJar)
    (hloc : Local kj) :
    KeyJar.get lib w use keyType issuer kj =
      if issuer = "" ∧ "" ∉ kj.issuerKeys.keys then .error (.keyError "") kj
      else .ok ((resolveIssuer kj issuer).elim Dict.empty fun j =>
        resolveIn use keyType ((kj.issuerKeys.get? j).getD [])) kj :=
  get_resolved lib w use keyType issuer kj hloc

open Refresh in
def selfBundle : KeyBundle :=
  { sampleBundle with
    _keys := [{ sampleKey with key := .str "secret" }], remote := false, source := none }

def selfJar : KeyJar := ⟨Dict.ofList [("", [selfBundle])]⟩

open Refresh in
theorem get_issuer_resolution_at_init :
    Local KeyJar.init ∧
      KeyJar.get sampleLib (sampleWorld fun _ => .error .transport) "ver" "" "" KeyJar.init =
        .error (.keyError "") KeyJar.init :=
  ⟨by decide, (get_issuer_resolution sampleLib _ "ver" "" "" KeyJar.init (by decide)).trans
    (if_pos ⟨rfl, by decide⟩)⟩

/-- The material of the keys of `bs` of kind `kind` whose `use` is `use`, in order. -/
def matching (use kind : String) (bs : List KeyBundle) : List Val :=
  ((bs.flatMap (·._keys)).filter fun k => k.kty = kind ∧ k.use = .str use).map Key.key

lemma foldl_addByKty_get? (ks : List Key) (d : Dict (List Val)) (kind : String) :
    (ks.foldl addByKty d).get? kind =
      if ks.filter (fun k => k.kty = kind) = [] then d.get? kind
      else some ((d.get? kind).getD [] ++ (ks.filter fun k => k.kty = kind).map Key.key) := by
  induction ks generalizing d with
  | nil => simp
  | cons k ks ih =>
    rw [List.foldl_cons, ih]
    by_cases hk : k.kty = kind
    · have h1 : (addByKty d k).get? kind = some ((d.get? kind).getD [] ++ [k.key]) := by
        simp [addByKty, hk]
      rw [h1, List.filter_cons_of_pos (by simpa using hk), if_neg (List.cons_ne_nil _ _)]
      split_ifs with h <;> simp [h]
    · have h1 : (addByKty d k).get? kind = d.get? kind := by simp [addByKty, hk]
      rw [h1, List.filter_cons_of_neg (by simpa using hk)]

lemma filter_use_kind (use kind : String) (ks : List Key) :
    ((ks.filter fun k => k.use = .str use).filter fun k => k.kty = kind) =
      ks.filter fun k => k.kty = kind ∧ k.use = .str use := by
  simp only [List.filter_filter, Bool.decide_and]

lemma filter_kind_use (use kind : String) (ks : List Key) :
    ((ks.filter fun k => k.kty = kind).filter fun k => k.use = .str use) =
      ks.filter fun k => k.kty = kind ∧ k.use = .str use := by
  simp only [List.filter_filter, Bool.decide_and, Bool.and_comm]

lemma resolveIn_typed (use keyType : String) (bs : List KeyBundle) (ht : keyType ≠ "")
    (kind : String) :
    (resolveIn use keyType bs).get? kind =
      if keyType = kind ∧ bs ≠ [] then some (matching (normUse use) (Py.lower keyType) bs)
      else none := by
  unfold resolveIn collect matching
  by_cases hb : bs = []
  · simp [hb]
  · have hsel : (bs.flatMap fun b => KeyBundle.select keyType b._keys) =
        (bs.flatMap (·._keys)).filter fun k => k.kty = Py.lower keyType := by
      simp [KeyBundle.select, ht, List.filter_flatMap]
    simp only [hb, List.isEmpty_iff, if_false, ht, ne_eq, not_false_eq_true, if_true, hsel,
      Dict.get?_set, Dict.get?_empty, and_true, filter_kind_use]

lemma resolveIn_untyped (use : String) (bs : List KeyBundle) (kind : String) :
    (resolveIn use "" bs).get? kind =
      if matching (normUse use) kind bs = [] then none
      else some (matching (normUse use) kind bs) := by
  unfold resolveIn collect matching
  by_cases hb : bs = []
  · simp [hb]
  · have hsel : (bs.flatMap fun b => KeyBundle.select "" b._keys) = bs.flatMap (·._keys) := by
      simp [KeyBundle.select]
    simp only [hb, List.isEmpty_iff, if_false, ne_eq, not_true_eq_false, hsel,
      foldl_addByKty_get?, filter_use_kind, Dict.get?_empty, List.map_eq_nil_iff,
      Option.getD_none, List.nil_append]

/-- The answer for bundles `bs`, kind by kind, by `matching`. -/
lemma resolveIn_matching (use keyType : String) (bs : List KeyBundle) :
    (keyType ≠ "" →
      ((resolveIn use keyType bs).get? keyType).getD [] =
        matching (normUse use) (Py.lower keyType) bs ∧
      ∀ kind, kind ≠ keyType → (resolveIn use keyType bs).get? kind = none) ∧
    (keyType = "" → ∀ kind,
      ((resolveIn use keyType bs).get? kind).getD [] = matching (normUse use) kind bs ∧
      ((resolveIn use keyType bs).get? kind = none ↔ matching (normUse use) kind bs = [])) := by
  refine ⟨fun ht => ⟨?_, fun kind hk => ?_⟩, fun ht kind => ?_⟩
  · rw [resolveIn_typed _ _ _ ht]
    split_ifs with h
    · rfl
    · simp only [true_and, not_not] at h
      simp [h, matching]
  · rw [resolveIn_typed _ _ _ ht, if_neg fun h => hk h.1.symm]
  · subst ht
    rw [resolveIn_untyped]
    split_ifs with h <;> simp [h]

/-- `get` on local bundles answers exactly the matching keys of the entry it reads. -/
theorem get_selects_usage (w : World) (use keyType issuer j : String) (kj : KeyJar)
    (hloc : Local kj) (hj : resolveIssuer kj issuer = some j) :
    ∃ res, KeyJar.get lib w use keyType issuer kj = .ok res kj ∧
      (keyType ≠ "" →
        (res.get? keyType).getD [] =
          matching (if use = "dec" then "enc" else if use = "ver" then "sig" else use) (Py.lower keyType)
            ((kj.issuerKeys.get? j).getD []) ∧
        ∀ kind, kind ≠ keyType → res.get? kind = none) ∧
      (keyType = "" → ∀ kind,
        (res.get? kind).getD [] =
          matching (if use = "dec" then "enc" else if use = "ver" then "sig" else use) kind
            ((kj.issuerKeys.get? j).getD []) ∧
        (res.get? kind = none ↔
          matching (if use = "dec" then "enc" else if use = "ver" then "sig" else use) kind
            ((kj.issuerKeys.get? j).getD []) = [])) := by
  have hnorm : (if use = "dec" then "enc" else if use = "ver" then "sig" else use) = normUse use :=
    rfl
  rw [hnorm]
  have hreg : ¬(issuer = "" ∧ "" ∉ kj.issuerKeys.keys) := by
    rintro ⟨rfl, hn⟩
    simp [resolveIssuer, hn] at hj
  rw [get_resolved lib w use keyType issuer kj hloc, if_neg hreg, hj]
  exact ⟨_, rfl, resolveIn_matching use keyType _⟩

theorem get_selects_usage_at_self :
    Local selfJar ∧ resolveIssuer selfJar "" = some "" ∧
      ∃ res, KeyJar.get Refresh.sampleLib (Refresh.sampleWorld fun _ => .error .transport)
        "ver" "" "" selfJar = .ok res selfJar :=
  ⟨by decide, by decide,
    (get_selects_usage Refresh.sampleLib _ "ver" "" "" "" selfJar (by decide) (by decide)).imp
      fun _ h => h.1⟩

open Refresh in
def unrestrictedJar : KeyJar :=
  ⟨Dict.ofList [("", [{ selfBundle with _keys := [{ sampleKey with key := .str "secret", use := .str "" }] }])]⟩

open Refresh in
theorem unrestricted_key_not_selected :
    KeyJar.get sampleLib (sampleWorld fun _ => .error .transport) "sig" "hmac" "" unrestrictedJar =
      .ok (Dict.ofList [("hmac", [])]) unrestrictedJar :=
  rfl

/-- `match_owner(url)` returns the first issuer, in iteration order, that `url` starts with. -/
theorem match_owner_first_prefix (kj : KeyJar) (url : String) :
    (matchOwner kj url = .error (.exception ("No keys for \x27" ++ url ++ "\x27")) ↔
      ∀ o ∈ kj.issuerKeys.keys, Py.startswith url o = false) ∧
    ∀ owner, matchOwner kj url = .ok owner ↔
      Py.startswith url owner = true ∧ ∃ pre post, kj.issuerKeys.keys = pre ++ owner :: post ∧
        ∀ o ∈ pre, Py.startswith url o = false := by
  have hfind : ∀ owner, kj.issuerKeys.keys.find? (Py.startswith url) = some owner ↔
      Py.startswith url owner = true ∧ ∃ pre post, kj.issuerKeys.keys = pre ++ owner :: post ∧
        ∀ o ∈ pre, Py.startswith url o = false := fun owner => by simp [List.find?_eq_some]
  have hnone : kj.issuerKeys.keys.find? (Py.startswith url) = none ↔
      ∀ o ∈ kj.issuerKeys.keys, Py.startswith url o = false := by simp [List.find?_eq_none]
  unfold matchOwner
  rw [← hnone]
  cases h : kj.issuerKeys.keys.find? (Py.startswith url) <;>
    exact ⟨by simp, fun owner => by rw [← hfind, h]; simp⟩

def ownersJar (first second : String) : KeyJar := ⟨Dict.ofList [(first, []), (second, [])]⟩

/-- With `""` first, as Python 2 orders it, a URL under the issuer matches `""`. -/
theorem self_owner_shadows_issuer :
    matchOwner (ownersJar "" "https://op.example") "https://op.example/authz" = .ok "" :=
  rfl

end OicKeyio.Resolution
