import Mathlib.Data.List.Chain
import OicKeyio.KeyJar
import OicKeyio.Refresh

set_option autoImplicit false

/-!
# Revoking keys

`remove_key` walks the issuer's list with `for kc in kcs` while removing the
bundles it empties from that same list. Python's list iterator keeps an index,
so the bundle that slides into a removed bundle's place is never visited.
`pruneSkip` says what the loop computes, by recursion on the bundles not yet
visited. The bundles are held by value, which is the program where the issuer's
list holds each bundle object once (`Objects.view_removeKey`).
-/
namespace OicKeyio.Revocation
open KeyJar

/-- The loop of `remove_key`: after each bundle it drops, the next is passed over. -/
def pruneSkip (typ : String) (val : Val) : List KeyBundle → List KeyBundle
  | [] => []
  | [kc] => if (kc.remove typ val)._keys = [] then [] else [kc.remove typ val]
  | kc :: next :: rest =>
    if (kc.remove typ val)._keys = [] then next :: pruneSkip typ val rest
    else kc.remove typ val :: pruneSkip typ val (next :: rest)

lemma removeLoop_done (typ : String) (val : Val) (i : Nat) (kcs : List KeyBundle)
    (h : kcs.length ≤ i) : removeLoop typ val i kcs = kcs := by
  rw [removeLoop, dif_neg (by omega)]

lemma removeLoop_visit (typ : String) (val : Val) (pre rest : List KeyBundle) (kc : KeyBundle) :
    removeLoop typ val pre.length (pre ++ kc :: rest) =
      if (kc.remove typ val)._keys = [] then removeLoop typ val (pre.length + 1) (pre ++ rest)
      else removeLoop typ val (pre.length + 1) (pre ++ kc.remove typ val :: rest) := by
  rw [removeLoop, dif_pos (by simp)]
  simp [List.getElem_append_right, List.eraseIdx_append_of_length_le, List.length_eq_zero]

theorem removeLoop_eq (typ : String) (val : Val) :
    ∀ pre suf : List KeyBundle,
      removeLoop typ val pre.length (pre ++ suf) = pre ++ pruneSkip typ val suf
  | pre, [] => by rw [removeLoop_done _ _ _ _ (by simp)]; simp [pruneSkip]
  | pre, [kc] => by
    rw [removeLoop_visit, pruneSkip]
    split_ifs <;> rw [removeLoop_done _ _ _ _ (by simp)]
  | pre, kc :: next :: rest => by
    rw [removeLoop_visit, pruneSkip]
    split_ifs
    · simpa using removeLoop_eq typ val (pre ++ [next]) rest
    · simpa using removeLoop_eq typ val (pre ++ [kc.remove typ val]) (next :: rest)

theorem removeKey_eq (issuer typ : String) (val : Val) (kj : KeyJar) :
    removeKey issuer typ val kj =
      match kj.issuerKeys.get? issuer with
      | none => kj
      | some kcs => ⟨kj.issuerKeys.set issuer (pruneSkip typ val kcs)⟩ := by
  unfold removeKey
  cases kj.issuerKeys.get? issuer with
  | none => rfl
  | some kcs => exact congrArg (fun l => (⟨kj.issuerKeys.set issuer l⟩ : KeyJar)) (removeLoop_eq typ val [] kcs)

def revokedObj : RsaObj := ⟨7, 3233, 17⟩

def revokedBundle : KeyBundle :=
  { Refresh.sampleBundle with
    _keys := [rsaKeyWith (.rsa revokedObj) "sig" (.str "")]
    remote := false, source := none }

/-- `remove_key` passes over the bundle after each one it prunes. -/
theorem revocation_skips_next (issuer typ : String) (val : Val) (kj : KeyJar)
    (kc next : KeyBundle) (rest : List KeyBundle)
    (h : kj.issuerKeys.get? issuer = some (kc :: next :: rest))
    (hempty : (kc.remove typ val)._keys = []) :
    (removeKey issuer typ val kj).issuerKeys.get? issuer =
      some (next :: pruneSkip typ val rest) := by
  rw [removeKey_eq, h]
  simp [pruneSkip, hempty]

theorem revocation_skips_next_at_pair :
    (⟨Dict.ofList [("https://op.example", [revokedBundle, revokedBundle])]⟩ : KeyJar).issuerKeys.get?
        "https://op.example" = some [revokedBundle, revokedBundle] ∧
      (revokedBundle.remove "RSA" (.rsa revokedObj))._keys = [] ∧
      (removeKey "https://op.example" "RSA" (.rsa revokedObj)
        ⟨Dict.ofList [("https://op.example", [revokedBundle, revokedBundle])]⟩).issuerKeys.get?
        "https://op.example" = some [revokedBundle] :=
  ⟨rfl, rfl, revocation_skips_next _ _ _ _ revokedBundle revokedBundle [] rfl rfl⟩

/-- The bundle after `kc` survives being passed over. -/
def SkipSafe (typ : String) (val : Val) (kc next : KeyBundle) : Prop :=
  (kc.remove typ val)._keys = [] → next.remove typ val = next ∧ next._keys ≠ []

theorem pruneSkip_eq_filter (typ : String) (val : Val) :
    ∀ kcs : List KeyBundle, kcs.Chain' (SkipSafe typ val) →
      pruneSkip typ val kcs = (kcs.map (·.remove typ val)).filter fun kc => kc._keys ≠ []
  | [], _ => rfl
  | [kc], _ => by
    simp only [pruneSkip, List.map_cons, List.map_nil]
    split_ifs with hk <;> simp [hk]
  | kc :: next :: rest, h => by
    rw [List.chain'_cons] at h
    simp only [pruneSkip, List.map_cons]
    split_ifs with hk
    · obtain ⟨hn, hne⟩ := h.1 hk
      simp [hk, hn, hne, pruneSkip_eq_filter typ val rest h.2.tail]
    · simp [hk, pruneSkip_eq_filter typ val (next :: rest) h.2]

/-- `remove_key` is complete on an issuer whose bundles are safe to pass over. -/
theorem removeKey_complete (issuer typ : String) (val : Val) (kj : KeyJar) (kcs : List KeyBundle)
    (h : kj.issuerKeys.get? issuer = some kcs) (hsafe : kcs.Chain' (SkipSafe typ val)) :
    (removeKey issuer typ val kj).issuerKeys.get? issuer =
      some ((kcs.map (·.remove typ val)).filter fun kc => kc._keys ≠ []) := by
  rw [removeKey_eq, h]
  simp [pruneSkip_eq_filter typ val kcs hsafe]

def symmetricBundle : KeyBundle := { revokedBundle with _keys := [Refresh.sampleKey] }

theorem removeKey_complete_at_pair :
    (⟨Dict.ofList [("https://op.example", [revokedBundle, symmetricBundle])]⟩ : KeyJar).issuerKeys.get?
        "https://op.example" = some [revokedBundle, symmetricBundle] ∧
      [revokedBundle, symmetricBundle].Chain' (SkipSafe "RSA" (.rsa revokedObj)) ∧
      (removeKey "https://op.example" "RSA" (.rsa revokedObj)
        ⟨Dict.ofList [("https://op.example", [revokedBundle, symmetricBundle])]⟩).issuerKeys.get?
        "https://op.example" =
        some (([revokedBundle, symmetricBundle].map (·.remove "RSA" (.rsa revokedObj))).filter
          fun kc => kc._keys ≠ []) :=
  have hsafe : [revokedBundle, symmetricBundle].Chain' (SkipSafe "RSA" (.rsa revokedObj)) :=
    List.chain'_pair.mpr fun _ => ⟨rfl, List.cons_ne_nil _ _⟩
  ⟨rfl, hsafe, removeKey_complete _ _ _ _ _ rfl hsafe⟩

end OicKeyio.Revocation
