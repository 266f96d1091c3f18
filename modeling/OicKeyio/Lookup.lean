import OicKeyio.Resolution
import OicKeyio.Merge
import OicKeyio.Registration
import OicKeyio.Cache

set_option autoImplicit false

/-!
# What `KeyJar.get` answers

`get(use, key_type, issuer)` reads each bundle of the picked issuer with
`get(key_type)` when a key type is given and with `keys()` otherwise. Both run
`_uptodate()` first, so the two paths refresh the same bundles and stop at the
same exception; the typed path then keeps the keys of one kind before it
collects by use. Its answer lists under `key_type`, as given, what the untyped
answer lists under `key_type.lower()`, for remote bundles as for local ones.
-/
namespace OicKeyio.Lookup
open KeyJar KeyBundle Merge Cache Resolution

variable (lib : Lib)

lemma get_keys (w : World) (t : String) (b : KeyBundle) :
    KeyBundle.get lib w t b =
      match KeyBundle.keys lib w b with
      | .ok ks b' => .ok (select t ks) b'
      | .error e b' => .error e b' := by
  rw [get_eq, keys_eq]
  cases uptodate lib w b <;> rfl

lemma readAll_get_keys (w : World) (t : String) :
    ∀ bs : List KeyBundle,
      readAll (KeyBundle.get lib w t) bs =
        match readAll (KeyBundle.keys lib w) bs with
        | .ok kss bs' => .ok (kss.map (select t)) bs'
        | .error e bs' => .error e bs'
  | [] => rfl
  | b :: bs => by
    simp only [readAll, get_keys]
    cases KeyBundle.keys lib w b with
    | error e b' => rfl
    | ok ks b' =>
      dsimp only
      rw [readAll_get_keys w t bs]
      cases readAll (KeyBundle.keys lib w) bs <;> rfl

lemma collect_typed (use t : String) (ht : t ≠ "") (kss : List (List Key)) :
    listAt (collect use t (kss.map (select t)).flatten) t =
        listAt (collect use "" kss.flatten) (Py.lower t) ∧
      ∀ k, k ≠ t → (collect use t (kss.map (select t)).flatten).get? k = none := by
  have hsel : (kss.map (select t)).flatten = kss.flatten.filter fun k => k.kty = Py.lower t := by
    have : select t = List.filter fun k => k.kty = Py.lower t := funext fun _ => if_pos ht
    rw [this, List.filter_flatten]
  refine ⟨?_, fun k hk => by simp [collect, ht, Ne.symm hk]⟩
  simp only [collect, ht, ne_eq, not_false_eq_true, if_true, not_true_eq_false, if_false, hsel,
    listAt, Dict.get?_set, Resolution.foldl_addByKty_get?, Resolution.filter_kind_use,
    Resolution.filter_use_kind, Dict.get?_empty, Option.getD_none, List.nil_append]
  split_ifs with h
  · rw [h]; rfl
  · rfl

/-- A typed `get` against the untyped one: the same jar and exception, or agreeing answers. -/
def Agrees (keyType : String) :
    EStateM.Result Exc KeyJar (Dict (List Val)) → EStateM.Result Exc KeyJar (Dict (List Val)) → Prop
  | .ok res' kj', .ok res kj =>
    kj' = kj ∧ listAt res' keyType = listAt res (Py.lower keyType) ∧ ∀ k, k ≠ keyType → res'.get? k = none
  | .error e' kj', .error e kj => e' = e ∧ kj' = kj
  | _, _ => False

/-- A typed `get` lists under `key_type` what the untyped one lists under its lower case. -/
theorem get_typed_agrees (w : World) (use keyType issuer : String) (kj : KeyJar)
    (ht : keyType ≠ "") :
    Agrees keyType (KeyJar.get lib w use keyType issuer kj) (KeyJar.get lib w use "" issuer kj) := by
  unfold KeyJar.get
  rcases kj.lookupIssuer issuer with e | _ | j
  · exact ⟨rfl, rfl⟩
  · exact ⟨rfl, rfl, fun _ _ => rfl⟩
  · simp only [if_pos ht, ne_eq, not_true_eq_false, if_false]
    split_ifs
    · exact ⟨rfl, rfl, fun _ _ => rfl⟩
    · rw [readAll_get_keys]
      cases readAll (KeyBundle.keys lib w) ((kj.issuerKeys.get? j).getD []) with
      | error e bs' => exact ⟨rfl, rfl⟩
      | ok kss bs' => exact ⟨rfl, collect_typed _ keyType ht kss⟩

def remoteJar : KeyJar := ⟨Dict.ofList [("https://op.example", [Refresh.sampleBundle])]⟩

theorem get_typed_agrees_at_remote :
    "RSA" ≠ "" ∧
      Agrees "RSA"
        (KeyJar.get Refresh.sampleLib (Refresh.sampleWorld fun _ => .error .transport) "sig" "RSA"
          "https://op.example" remoteJar)
        (KeyJar.get Refresh.sampleLib (Refresh.sampleWorld fun _ => .error .transport) "sig" ""
          "https://op.example" remoteJar) :=
  ⟨by decide, get_typed_agrees Refresh.sampleLib _ "sig" "RSA" "https://op.example" remoteJar (by decide)⟩

lemma startswith_file_of_https {url : String} (h : Py.startswith url "https://" = true) :
    Py.startswith url "file://" = false := by
  obtain ⟨cs⟩ := url
  rcases cs with _ | ⟨c, cs⟩
  · simp [Py.startswith] at h
  · simp only [Py.startswith, List.isPrefixOf, Bool.and_eq_true, beq_iff_eq] at h ⊢
    obtain rfl : c = 'h' := h.1.symm
    rfl

lemma bundleFor_https (fs : Fs) (url : String) (h : Py.startswith url "https://" = true) :
    ∃ kb, bundleFor lib fs url = .ok kb ∧ kb._keys = [] ∧ kb.remote = true ∧
      kb.source = some url ∧ kb.timeOut = 0 := by
  have hfile := startswith_file_of_https h
  have hne : ([] : List Entry) ≠ [] ↔ False := ⟨fun h => h rfl, False.elim⟩
  unfold bundleFor
  split_ifs <;>
    exact ⟨_, by simp only [KeyBundle.init, hne, if_false, hfile, h, Bool.or_true, if_true]; rfl,
      rfl, rfl, rfl, rfl⟩

lemma keys_first_fetch (w : World) (kb : KeyBundle) (url : String) (r : Response) (es : List Entry)
    (hremote : kb.remote = true) (hsrc : kb.source = some url) (hurl : url ≠ "")
    (htime : kb.timeOut < w.now) (hnet : ∀ req : Request, req.url = url → w.net req = .ok r)
    (h200 : r.status = 200) (htext : r.text = .ok es) (hdec : (decodeAll lib es).2 = none) :
    ∃ kb', KeyBundle.keys lib w kb = .ok (decodeAll lib es).1 kb' ∧ kb'._keys = (decodeAll lib es).1 := by
  have hf : fetches w kb = true := by simp [fetches, hremote, htime, hsrc, hurl]
  have hreq : w.net (request { kb with _keys := [] }) = .ok r := hnet _ (by simp [request, hsrc])
  rw [keys_eq, uptodate_fetch, if_pos hf, doRemote_eq, hreq]
  simp only [h200, show (200 : Nat) ≠ 304 by decide, if_false, if_true, htext, hdec, outcome,
    afterRefresh, List.nil_append]
  exact ⟨_, rfl, rfl⟩

/-- `get` on an issuer holding one bundle answers the keys that bundle's `keys()` returns. -/
lemma get_single (w : World) (use keyType issuer : String) (kj : KeyJar) (kb kb' : KeyBundle)
    (ks : List Key) (hget : kj.issuerKeys.get? issuer = some [kb])
    (hread : KeyBundle.keys lib w kb = .ok ks kb') :
    KeyJar.get lib w use keyType issuer kj =
      .ok (collect (normUse use) keyType (select keyType ks)) ⟨kj.issuerKeys.set issuer [kb']⟩ := by
  have hmem : issuer ∈ kj.issuerKeys.keys := by
    rw [← Dict.contains_iff, Dict.contains, hget]; rfl
  have hlookup : kj.lookupIssuer issuer = .ok (some issuer) := by
    rw [Resolution.lookupIssuer_eq, if_neg fun h => h.2 (h.1 ▸ hmem)]
    simp [Resolution.resolveIssuer, hmem]
  unfold KeyJar.get
  rw [hlookup]
  simp only [hget, Option.getD_some, List.isEmpty_cons, Bool.false_eq_true, if_false]
  split_ifs with hk
  · rw [readAll_get_keys]
    simp [readAll, hread]
  · simp [readAll, hread, select, hk]

lemma collect_select_single (use keyType : String) (kb : KeyBundle) :
    collect (normUse use) keyType (select keyType kb._keys) = Resolution.resolveIn use keyType [kb] := by
  simp [Resolution.resolveIn]

/-- The first `get` after `load_keys` of an `https` key set fetches it and answers from it. -/
theorem load_keys_then_get (fs : Fs) (pcr : Entry) (issuer url : String) (kj : KeyJar)
    (w : World) (use keyType : String) (r : Response) (es : List Entry)
    (hurl : pcr.get? "jwks_uri" = some (.str url)) (hhttps : Py.startswith url "https://" = true)
    (hnow : 0 < w.now) (hnet : ∀ req : Request, req.url = url → w.net req = .ok r)
    (h200 : r.status = 200) (htext : r.text = .ok es) (hdec : (decodeAll lib es).2 = none) :
    ∃ kb' res, KeyJar.get lib w use keyType issuer (stateOf (loadKeys lib fs pcr issuer true kj)) =
        .ok res ⟨(stateOf (loadKeys lib fs pcr issuer true kj)).issuerKeys.set issuer [kb']⟩ ∧
      kb'._keys = (decodeAll lib es).1 ∧
      (keyType ≠ "" →
        (res.get? keyType).getD [] =
          matching (if use = "dec" then "enc" else if use = "ver" then "sig" else use)
            (Py.lower keyType) [kb'] ∧
        ∀ kind, kind ≠ keyType → res.get? kind = none) ∧
      (keyType = "" → ∀ kind,
        (res.get? kind).getD [] =
          matching (if use = "dec" then "enc" else if use = "ver" then "sig" else use) kind [kb'] ∧
        (res.get? kind = none ↔
          matching (if use = "dec" then "enc" else if use = "ver" then "sig" else use) kind [kb'] =
            [])) := by
  obtain ⟨kb, hb, -, hr, hs, ht⟩ := bundleFor_https lib fs url hhttps
  have hne : url ≠ "" := by rintro rfl; simp [Py.startswith] at hhttps
  obtain ⟨kb', hread, hkb'⟩ :=
    keys_first_fetch lib w kb url r es hr hs hne (ht ▸ hnow) hnet h200 htext hdec
  have hload : loadKeys lib fs pcr issuer true kj =
      .ok () (addKb issuer kb (resetIssuer issuer true kj)) := by
    rw [Registration.loadKeys_eq, hurl]
    simp only [hb]
  refine ⟨kb', _, ?_, hkb', Resolution.resolveIn_matching use keyType [kb']⟩
  rw [hload, stateOf, get_single lib w use keyType issuer _ kb kb' _ (by simp [addKb, resetIssuer]) hread,
    ← hkb', collect_select_single]

def opMetadata : Entry := Dict.ofList [("jwks_uri", .str "https://op.example/jwks")]

def opKeys : List Entry :=
  [Dict.ofList [("kty", .str "hmac"), ("key", .str "secret"), ("use", .str "sig")]]

def opResponse : Response := ⟨200, .ok opKeys, none, none⟩

def opWorld : World :=
  { now := 10, done := 11, net := fun _ => .ok opResponse,
    fs := ⟨fun _ => .error .valueError, fun _ => .error .valueError⟩ }

theorem load_keys_then_get_at_op :
    opMetadata.get? "jwks_uri" = some (.str "https://op.example/jwks") ∧
      Py.startswith "https://op.example/jwks" "https://" = true ∧ 0 < opWorld.now ∧
      (∀ req : Request, req.url = "https://op.example/jwks" → opWorld.net req = .ok opResponse) ∧
      opResponse.status = 200 ∧ opResponse.text = .ok opKeys ∧
      (decodeAll Refresh.sampleLib opKeys).2 = none ∧
      ∃ kb' res, KeyJar.get Refresh.sampleLib opWorld "sig" "hmac" "https://op.example"
          (stateOf (loadKeys Refresh.sampleLib opWorld.fs opMetadata "https://op.example" true
            KeyJar.init)) =
          .ok res ⟨(stateOf (loadKeys Refresh.sampleLib opWorld.fs opMetadata "https://op.example" true
              KeyJar.init)).issuerKeys.set "https://op.example" [kb']⟩ ∧
        kb'._keys = (decodeAll Refresh.sampleLib opKeys).1 ∧
        ("hmac" ≠ "" →
          (res.get? "hmac").getD [] =
            matching (if "sig" = "dec" then "enc" else if "sig" = "ver" then "sig" else "sig")
              (Py.lower "hmac") [kb'] ∧
          ∀ kind, kind ≠ "hmac" → res.get? kind = none) ∧
        ("hmac" = "" → ∀ kind,
          (res.get? kind).getD [] =
            matching (if "sig" = "dec" then "enc" else if "sig" = "ver" then "sig" else "sig") kind [kb'] ∧
          (res.get? kind = none ↔
            matching (if "sig" = "dec" then "enc" else if "sig" = "ver" then "sig" else "sig") kind [kb'] =
              [])) :=
  ⟨rfl, rfl, by decide, fun _ _ => rfl, rfl, rfl, rfl,
    load_keys_then_get Refresh.sampleLib opWorld.fs opMetadata "https://op.example" _ KeyJar.init
      opWorld "sig" "hmac" opResponse opKeys rfl rfl (by decide) (fun _ _ => rfl) rfl rfl rfl⟩

end OicKeyio.Lookup
