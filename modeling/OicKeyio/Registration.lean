import OicKeyio.KeyJar
import OicKeyio.Refresh

set_option autoImplicit false

/-!
# Registering keys

`add_hmac` and `load_keys`, the two methods that build bundles for an issuer.
`add_hmac` makes sure its issuer has an entry and then appends every bundle it
builds to the self issuer's list `issuer_keys[""]`; the lists are held by value,
which is the program where no two issuers share a list object
(`Objects.view_addHmac`). `load_keys` empties or creates
the issuer's entry before it builds the bundle for `pcr["jwks_uri"]`, and its
`except KeyError` holds the call to `add` as well as the lookup.
-/
namespace OicKeyio.Registration
open KeyJar

variable (lib : Lib)

def hmacKey (key : Val) (use : String) : Key :=
  { KeyClass.hmacKey.blank with kty := "hmac", key, use := .str use, kty_lower := rfl }

/-- The bundle `KeyBundle([{"kty": "hmac", "key": key, "use": use}])`. -/
def hmacKeyBundle (key : Val) (use : String) : KeyBundle :=
  { KeyBundle.fresh {} with _keys := [hmacKey key use] }

theorem hmacBundle_eq (fs : Fs) (key : Val) (use : String) :
    hmacBundle lib fs key use = .ok (hmacKeyBundle key use) := rfl

theorem appendHmac_eq (fs : Fs) (key : Val) (usage : List String) (kj : KeyJar)
    (l : List KeyBundle) (h : kj.issuerKeys.get? "" = some l) :
    appendHmac lib fs key usage kj =
      .ok () ⟨kj.issuerKeys.set "" (l ++ usage.map (hmacKeyBundle key))⟩ := by
  induction usage generalizing kj l with
  | nil => simp [appendHmac, Dict.set_of_get? _ _ _ h]
  | cons use rest ih =>
    simp only [appendHmac, h, hmacBundle_eq]
    rw [ih _ (l ++ [hmacKeyBundle key use]) (by simp)]
    simp

theorem appendHmac_unregistered (fs : Fs) (key : Val) (use : String) (rest : List String)
    (kj : KeyJar) (h : kj.issuerKeys.get? "" = none) :
    appendHmac lib fs key (use :: rest) kj = .error (.keyError "") kj := by
  simp only [appendHmac, h]

lemma addHmac_eq (fs : Fs) (issuer : String) (key : Val) (usage : List String) (kj : KeyJar) :
    addHmac lib fs issuer key usage kj =
      appendHmac lib fs key usage ⟨kj.issuerKeys.set issuer ((kj.issuerKeys.get? issuer).getD [])⟩ := by
  simp only [addHmac, run_bind, run_modify]
  congr 1
  cases h : kj.issuerKeys.get? issuer with
  | none => simp [Dict.contains, h]
  | some l => simp [Dict.contains, h, Dict.set_of_get? _ _ _ h]

/-- `add_hmac` appends its bundles to the self issuer's list, not the issuer's. -/
theorem addHmac_appends_to_self (fs : Fs) (issuer : String) (key : Val) (usage : List String)
    (kj : KeyJar) (hne : issuer ≠ "") :
    (∀ l, kj.issuerKeys.get? "" = some l →
      ∃ kj', addHmac lib fs issuer key usage kj = .ok () kj' ∧
        kj'.issuerKeys.get? "" = some (l ++ usage.map (hmacKeyBundle key)) ∧
        kj'.issuerKeys.get? issuer = some ((kj.issuerKeys.get? issuer).getD []) ∧
        ∀ other, other ≠ issuer → other ≠ "" → kj'.issuerKeys.get? other = kj.issuerKeys.get? other) ∧
    (kj.issuerKeys.get? "" = none → usage ≠ [] →
      ∃ kj', addHmac lib fs issuer key usage kj = .error (.keyError "") kj' ∧
        kj'.issuerKeys.get? issuer = some ((kj.issuerKeys.get? issuer).getD []) ∧
        ∀ other, other ≠ issuer → kj'.issuerKeys.get? other = kj.issuerKeys.get? other) := by
  have hself : ∀ o : Option (List KeyBundle), (if issuer = "" then o else kj.issuerKeys.get? "") =
      kj.issuerKeys.get? "" := fun _ => if_neg hne
  refine ⟨fun l hl => ?_, fun hl hu => ?_⟩
  · rw [addHmac_eq, appendHmac_eq lib fs key usage _ l (by simpa [hself] using hl)]
    refine ⟨_, rfl, by simp, by simp [Ne.symm hne], fun other h1 h2 => ?_⟩
    simp [Ne.symm h1, Ne.symm h2]
  · obtain ⟨use, rest, rfl⟩ := List.exists_cons_of_ne_nil hu
    rw [addHmac_eq, appendHmac_unregistered lib fs key use rest _ (by simpa [hself] using hl)]
    exact ⟨_, rfl, by simp, fun other h => by simp [Ne.symm h]⟩

def selfOnlyJar : KeyJar := ⟨Dict.ofList [("", [])]⟩

theorem addHmac_appends_to_self_at_op :
    (∃ kj', addHmac Refresh.sampleLib (Refresh.sampleWorld fun _ => .error .transport).fs
        "https://op.example" (.str "secret") ["sig"] selfOnlyJar = .ok () kj' ∧
      kj'.issuerKeys.get? "" = some ([] ++ ["sig"].map (hmacKeyBundle (.str "secret"))) ∧
      kj'.issuerKeys.get? "https://op.example" =
        some ((selfOnlyJar.issuerKeys.get? "https://op.example").getD []) ∧
      ∀ other, other ≠ "https://op.example" → other ≠ "" →
        kj'.issuerKeys.get? other = selfOnlyJar.issuerKeys.get? other) ∧
    ∃ kj', addHmac Refresh.sampleLib (Refresh.sampleWorld fun _ => .error .transport).fs
        "https://op.example" (.str "secret") ["sig"] KeyJar.init = .error (.keyError "") kj' ∧
      kj'.issuerKeys.get? "https://op.example" =
        some ((KeyJar.init.issuerKeys.get? "https://op.example").getD []) ∧
      ∀ other, other ≠ "https://op.example" →
        kj'.issuerKeys.get? other = KeyJar.init.issuerKeys.get? other :=
  ⟨(addHmac_appends_to_self Refresh.sampleLib _ "https://op.example" (.str "secret") ["sig"]
      selfOnlyJar (by decide)).1 [] rfl,
    (addHmac_appends_to_self Refresh.sampleLib _ "https://op.example" (.str "secret") ["sig"]
      KeyJar.init (by decide)).2 rfl (List.cons_ne_nil _ _)⟩

/-- `load_keys` by `pcr["jwks_uri"]`: the reset, then the bundle, the error or nothing. -/
theorem loadKeys_eq (fs : Fs) (pcr : Entry) (issuer : String) (replace : Bool) (kj : KeyJar) :
    loadKeys lib fs pcr issuer replace kj =
      match pcr.get? "jwks_uri" with
      | none => .ok () (resetIssuer issuer replace kj)
      | some (.str url) =>
        match bundleFor lib fs url with
        | .ok kb => .ok () (addKb issuer kb (resetIssuer issuer replace kj))
        | .error e =>
          if e.isKeyError then .ok () (resetIssuer issuer replace kj)
          else .error e (resetIssuer issuer replace kj)
      | some v =>
        .error (.typeError ("argument of type \x27" ++ v.typeName ++ "\x27 is not iterable"))
          (resetIssuer issuer replace kj) := by
  simp only [loadKeys, run_bind, run_modify, exceptKeyError]
  rcases pcr.get? "jwks_uri" with _ | ((_ | url | _ | _)) <;> try rfl
  simp only [add, run_bind, run_modify]
  cases bundleFor lib fs url <;> rfl

end OicKeyio.Registration
