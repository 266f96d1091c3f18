import OicKeyio.KeyBundle
import OicKeyio.Refresh

set_option autoImplicit false

/-!
# Publishing keys

`jwks()` writes each key's `to_dict()`, and a peer reads the text back with
`do_keys`. `to_dict` leaves out every member whose value is false and never
writes the material `key`, so the key a peer rebuilds is `received k`: the
published members read back, the others `""`. For an RSA key the peer gets the
public numbers only if `n` and `e` were set, which `dc()` does through
`decomp()`. Every key `do_keys` decodes, and every key `do_local_der` loads from
an RSA key file, has been through it and comes back whole under a library whose
`new_pub_key` rebuilds what `long_to_base64` writes; `keybundle_from_local_file`
and `key_setup` never call it.
-/
namespace OicKeyio.Publish
open KeyBundle

variable (lib : Lib)

/-- A member as a peer reads it back: a false value is left out and defaults to `""`. -/
def readBack (v : Val) : Val := if v.truthy then v else .str ""

@[simp] lemma readBack_str (s : String) : readBack (.str s) = .str s := by
  by_cases h : s = "" <;> simp [readBack, h]

/-- The key `K2C[kty](**k.to_dict())` builds before its `dc()`. -/
def received (k : Key) : Key :=
  { kty := Py.lower k.kty, alg := readBack k.alg, use := readBack k.use,
    kid := readBack k.kid, key := .str "",
    variant := match k.variant with
      | .rsa n e => .rsa (readBack n) (readBack e)
      | .ec crv x y => .ec (readBack crv) (readBack x) (readBack y)
      | .hmac => .hmac
    kty_lower := Py.isLower_lower _ }

lemma lookup_pairs (f : String → Val) (l : List String) (m : String) :
    Dict.lookup m (l.map fun x => (x, f x)) = if m ∈ l then some (f m) else none := by
  induction l with
  | nil => rfl
  | cons x xs ih =>
    by_cases hx : x = m
    · subst hx; simp [Dict.lookup]
    · simp [Dict.lookup, hx, ih, Ne.symm hx]

lemma toDict_get? (k : Key) (m : String) :
    k.toDict.get? m = if m ∈ k.cls.members ∧ (k.attr m).truthy then some (k.attr m) else none := by
  simp only [Key.toDict, Dict.get?, lookup_pairs, List.mem_filter]

lemma members_sub_params (cls : KeyClass) : ∀ m ∈ cls.members, m ∈ cls.params := by
  cases cls <;> decide

lemma arg_toDict (k : Key) (m : String) (hm : m ∈ k.cls.members) :
    KeyClass.arg k.toDict m = readBack (k.attr m) := by
  by_cases h : (k.attr m).truthy <;> simp [KeyClass.arg, toDict_get?, hm, h, readBack]

lemma arg_toDict_key (k : Key) : KeyClass.arg k.toDict "key" = .str "" := by
  have : "key" ∉ k.cls.members := by cases k.cls <;> decide
  simp [KeyClass.arg, toDict_get?, this]

lemma toDict_kty (k : Key) (hk : k.kty ≠ "") : k.toDict.get? "kty" = some (.str k.kty) := by
  have : "kty" ∈ k.cls.members := by cases k.cls <;> decide
  simp [toDict_get?, this, Key.attr, hk]

theorem init_toDict (k : Key) (hk : k.kty ≠ "") : k.cls.init k.toDict = .ok (received k) := by
  have hfind : k.toDict.keys.find? (fun name => name ∉ k.cls.params) = none := by
    rw [List.find?_eq_none]
    intro m hm
    have hmem : m ∈ k.cls.members := by simp [Dict.keys, Key.toDict] at hm; exact hm.1
    simpa using members_sub_params _ m hmem
  unfold KeyClass.init
  simp only [hfind, toDict_kty k hk, Option.getD_some]
  obtain ⟨kty, alg, use, kid, key, variant, hl⟩ := k
  cases variant <;> simp [received, arg_toDict, arg_toDict_key, Key.cls, Key.attr, KeyClass.members]

theorem decodeKey_toDict (k : Key) (hk : k2c k.kty = some k.cls) :
    decodeKey lib k.toDict = (received k).dc lib := by
  have hne : k.kty ≠ "" := by rintro h; simp [h, k2c] at hk
  have hlow : Py.lower k.kty = k.kty := k.kty_lower
  simp only [decodeKey, toDict_kty k hne, hlow, hk, init_toDict k hne]
  rfl

/-- A library under which publishing round-trips: `new_pub_key` undoes `long_to_base64`. -/
def Inverts (lib : Lib) : Prop :=
  ∀ o : RsaObj, lib.longToBase64 o.n ≠ "" ∧ lib.longToBase64 o.e ≠ "" ∧
    ∃ o', lib.newPubKey (lib.longToBase64 o.e) (lib.longToBase64 o.n) = .ok o' ∧
      o'.n = o.n ∧ o'.e = o.e

lemma truthy_readBack (v : Val) : (readBack v).truthy = v.truthy := by
  unfold readBack; split_ifs with h <;> simp_all

lemma readBack_of_truthy {v : Val} (h : v.truthy = true) : readBack v = v := if_pos h

lemma dc_cls {k k' : Key} (h : k.dc lib = .ok k') : k'.kty = k.kty ∧ k'.cls = k.cls := by
  obtain ⟨kty, alg, use, kid, key, variant, hl⟩ := k
  cases variant with
  | rsa n e =>
    simp only [Key.dc, Key.decomp, Key.comp] at h
    split_ifs at h
    · cases key <;> cases h; exact ⟨rfl, rfl⟩
    · cases hk : lib.newPubKey e.pyStr n.pyStr <;> rw [hk] at h <;> cases h; exact ⟨rfl, rfl⟩
    · cases h; exact ⟨rfl, rfl⟩
  | ec => cases h; exact ⟨rfl, rfl⟩
  | hmac => cases h; exact ⟨rfl, rfl⟩

lemma init_kty_cls {cls : KeyClass} {kw : Entry} {k : Key} {s : String}
    (hs : kw.get? "kty" = some (.str s)) (h : cls.init kw = .ok k) :
    k.kty = Py.lower s ∧ k.cls = cls := by
  unfold KeyClass.init at h
  simp only [hs, Option.getD_some] at h
  split at h
  · cases h
  · cases h; cases cls <;> exact ⟨rfl, rfl⟩

lemma decodeKey_ok {inst : Entry} {k : Key} (h : decodeKey lib inst = .ok k) :
    ∃ s cls k0, inst.get? "kty" = some (.str s) ∧ k2c (Py.lower s) = some cls ∧
      cls.init inst = .ok k0 ∧ k0.dc lib = .ok k := by
  unfold decodeKey at h
  split at h
  · cases h
  · rename_i s hs
    split at h
    · cases h
    · rename_i cls hcls
      cases hi : cls.init inst with
      | error e => rw [hi] at h; cases h
      | ok k0 => rw [hi] at h; exact ⟨s, cls, k0, hs, hcls, hi, h⟩
  · cases h

lemma k2c_of_decodeKey {inst : Entry} {k : Key} (h : decodeKey lib inst = .ok k) :
    k2c k.kty = some k.cls := by
  obtain ⟨s, cls, k0, hs, hcls, hi, hdc⟩ := decodeKey_ok lib h
  obtain ⟨hkty, hc⟩ := dc_cls lib hdc
  obtain ⟨hkty0, hc0⟩ := init_kty_cls hs hi
  rw [hkty, hc, hkty0, hc0, hcls]

lemma dc_received (hlib : Inverts lib) {k0 k : Key} (h : k0.dc lib = .ok k) :
    ∃ k', (received k).dc lib = .ok k' ∧ { k' with key := .str "" } = received k ∧
      ∀ o, k.cls = .rsaKey → k.key = .rsa o → ∃ o', k'.key = .rsa o' ∧ o'.n = o.n ∧ o'.e = o.e := by
  obtain ⟨kty, alg, use, kid, key, variant, hl⟩ := k0
  cases variant with
  | rsa n e =>
    simp only [Key.dc, Key.decomp, Key.comp] at h
    split_ifs at h with hkey hne
    · cases key with
      | rsa o =>
        cases h
        obtain ⟨hn, he, o', ho', hon, hoe⟩ := hlib o
        refine ⟨{ received _ with key := .rsa o' }, ?_, rfl, fun o₁ _ h₁ => ?_⟩
        · simp [received, Key.dc, Key.comp, hn, he, Val.pyStr, ho']; rfl
        · cases h₁; exact ⟨o', rfl, hon, hoe⟩
      | _ => cases h
    · rcases ho : lib.newPubKey e.pyStr n.pyStr with _ | o <;> rw [ho] at h <;> cases h
      simp only [Bool.and_eq_true] at hne
      refine ⟨{ received _ with key := .rsa o }, ?_, rfl, fun o₁ _ h₁ => ?_⟩
      · simp [received, Key.dc, Key.comp, readBack_of_truthy hne.1, readBack_of_truthy hne.2, hne, ho]; rfl
      · cases h₁; exact ⟨o, rfl, rfl, rfl⟩
    · cases h
      refine ⟨received _, ?_, rfl, fun o _ h₁ => ?_⟩
      · simp [received, Key.dc, truthy_readBack, hne]
      · simp only at h₁
        simp [h₁, Val.truthy] at hkey
  | ec => cases h; exact ⟨received _, rfl, rfl, fun _ h => by cases h⟩
  | hmac => cases h; exact ⟨received _, rfl, rfl, fun _ h => by cases h⟩

/-- Publishing round-trips for every key `do_keys` decodes. -/
theorem decoded_key_round_trip (hlib : Inverts lib) (inst : Entry) (k : Key)
    (hk : decodeKey lib inst = .ok k) :
    ∃ k', decodeKey lib k.toDict = .ok k' ∧ { k' with key := .str "" } = received k ∧
      ∀ o, k.cls = .rsaKey → k.key = .rsa o → ∃ o', k'.key = .rsa o' ∧ o'.n = o.n ∧ o'.e = o.e := by
  obtain ⟨s, cls, k0, -, -, -, hdc⟩ := decodeKey_ok lib hk
  rw [decodeKey_toDict lib k (k2c_of_decodeKey lib hk)]
  exact dc_received lib hlib hdc

/-- A library that writes `m` as `m + 1` letters and reads a string back by its length. -/
def unaryLib : Lib :=
  ⟨fun e n => .ok ⟨0, n.length - 1, e.length - 1⟩, fun m => ⟨List.replicate (m + 1) 'A'⟩⟩

lemma unaryLib_inverts : Inverts unaryLib := fun o =>
  have hlen : ∀ m, (List.replicate (m + 1) 'A').length - 1 = m := fun m => by
    simp only [List.length_replicate, Nat.add_sub_cancel]
  ⟨fun h => List.cons_ne_nil _ _ (congrArg String.data h),
    fun h => List.cons_ne_nil _ _ (congrArg String.data h), _, rfl, hlen o.n, hlen o.e⟩

def materialEntry : Entry := Dict.ofList [("kty", .str "RSA"), ("key", .rsa ⟨1, 5, 3⟩), ("use", .str "sig")]

def materialKey : Key :=
  { rsaKeyWith (.rsa ⟨1, 5, 3⟩) "sig" (.str "") with variant := .rsa (.str "AAAAAA") (.str "AAAA") }

theorem decoded_key_round_trip_at_material :
    Inverts unaryLib ∧ decodeKey unaryLib materialEntry = .ok materialKey ∧
      ∃ k', decodeKey unaryLib materialKey.toDict = .ok k' ∧
        { k' with key := .str "" } = received materialKey ∧
        ∀ o, materialKey.cls = .rsaKey → materialKey.key = .rsa o →
          ∃ o', k'.key = .rsa o' ∧ o'.n = o.n ∧ o'.e = o.e :=
  ⟨unaryLib_inverts, rfl,
    decoded_key_round_trip unaryLib unaryLib_inverts materialEntry materialKey rfl⟩

lemma derKey_dc (bkey : Val) (use : String) (k : Key)
    (h : ({ KeyClass.rsaKey.blank with key := bkey } : Key).decomp lib = .ok k) :
    (rsaKeyWith bkey use (.str "")).dc lib = .ok { k with use := .str use } := by
  cases bkey with
  | rsa o => cases h; rfl
  | _ => cases h

lemma derKeys_dc (bkey : Val) :
    ∀ (uses : List String) (b b' : KeyBundle), derKeys lib bkey "rsa" uses b = .ok () b' →
      ∃ new, b'._keys = b._keys ++ new ∧
        ∀ k ∈ new, ∃ use, (rsaKeyWith bkey use (.str "")).dc lib = .ok k
  | [], b, b', h => by cases h; exact ⟨[], by simp, by simp⟩
  | use :: rest, b, b', h => by
    have hcls : (k2c "rsa").elim (.error (.keyError "rsa")) .ok = (.ok .rsaKey : Except Exc KeyClass) :=
      rfl
    simp only [derKeys, run_bind, hcls, run_ofExcept_ok] at h
    rcases hd : ({ KeyClass.rsaKey.blank with key := bkey } : Key).decomp lib with _ | k <;>
      rw [hd] at h
    · cases h
    simp only [run_ofExcept_ok, run_bind, run_modify] at h
    obtain ⟨new, hnew, hk⟩ := derKeys_dc bkey rest _ b' h
    refine ⟨{ k with use := .str use } :: new, by simp [hnew], ?_⟩
    rintro k' (_ | ⟨_, hk'⟩)
    · exact ⟨use, derKey_dc lib bkey use k hd⟩
    · exact hk k' hk'

/-- A bundle loaded from a DER RSA key file publishes every key whole. -/
theorem der_bundle_round_trip (hlib : Inverts lib) (fs : Fs) (filename : String)
    (usage : Option (List String)) (kb : KeyBundle)
    (h : KeyBundle.init lib fs
      { source := "file://" ++ filename, fileformat := "der", keyusage := usage } = .ok kb) :
    ∀ k ∈ kb._keys, ∃ k', decodeKey lib k.toDict = .ok k' ∧ { k' with key := .str "" } = received k ∧
      ∀ o, k.key = .rsa o → ∃ o', k'.key = .rsa o' ∧ o'.n = o.n ∧ o'.e = o.e := by
  have hdrop : Py.drop ("file://" ++ filename) 7 = filename := Py.drop_append _ _ _ rfl
  have hder : Py.lower "der" = "der" := rfl
  have hrsa : Py.lower "rsa" = "rsa" := rfl
  simp only [KeyBundle.init, Py.startswith_append, hdrop, ne_eq, not_true, if_false, if_true,
    loadLocal, KeyBundle.fresh, hder, hrsa, show ("der" : String) ≠ "jwk" by decide] at h
  cases hl : fs.rsaLoad filename with
  | error e => simp [build, doLocalDer, hl] at h
  | ok o =>
    simp [build, doLocalDer, hl] at h
    split at h
    · rename_i b' hd
      cases h
      obtain ⟨new, hnew, hnewdc⟩ := derKeys_dc lib (.rsa o) _ _ _ hd
      intro k hk
      obtain ⟨use, hdc⟩ := hnewdc k (by simpa [hnew] using hk)
      obtain ⟨hkty, hcls⟩ := dc_cls lib hdc
      obtain ⟨k', h1, h2, h3⟩ := dc_received lib hlib hdc
      refine ⟨k', ?_, h2, fun o' ho' => h3 o' (by rw [hcls]; rfl) ho'⟩
      rw [decodeKey_toDict lib k (by rw [hkty, hcls]; rfl), h1]
    · cases h

def derFs : Fs := ⟨fun _ => .error .valueError, fun _ => .ok ⟨2, 5, 3⟩⟩

def derBundle : KeyBundle :=
  { KeyBundle.fresh { fileformat := "der" } with
    source := some "keys/rsa.der"
    _keys := ["enc", "sig"].map fun use =>
      { rsaKeyWith (.rsa ⟨2, 5, 3⟩) use (.str "") with variant := .rsa (.str "AAAAAA") (.str "AAAA") } }

theorem der_bundle_round_trip_at_file :
    Inverts unaryLib ∧
      KeyBundle.init unaryLib derFs
        { source := "file://" ++ "keys/rsa.der", fileformat := "der", keyusage := none } =
        .ok derBundle ∧
      ∀ k ∈ derBundle._keys, ∃ k', decodeKey unaryLib k.toDict = .ok k' ∧
        { k' with key := .str "" } = received k ∧
        ∀ o, k.key = .rsa o → ∃ o', k'.key = .rsa o' ∧ o'.n = o.n ∧ o'.e = o.e :=
  ⟨unaryLib_inverts, rfl,
    der_bundle_round_trip unaryLib unaryLib_inverts derFs "keys/rsa.der" none derBundle rfl⟩

lemma received_rsaKeyWith (key : Val) (use : String) (kid : Val) :
    received (rsaKeyWith key use kid) = rsaKeyWith (.str "") use (readBack kid) := by
  simp only [received, rsaKeyWith, KeyClass.blank, readBack_str]
  rfl

lemma decode_rsaKeyWith (key : Val) (use : String) (kid : Val) :
    (rsaKeyWith key use kid).toDict.get? "n" = none ∧ (rsaKeyWith key use kid).toDict.get? "e" = none ∧
      decodeKey lib (rsaKeyWith key use kid).toDict = .ok (rsaKeyWith (.str "") use (readBack kid)) := by
  refine ⟨by simp [toDict_get?, Key.attr, rsaKeyWith, KeyClass.blank],
    by simp [toDict_get?, Key.attr, rsaKeyWith, KeyClass.blank], ?_⟩
  rw [decodeKey_toDict lib (rsaKeyWith key use kid) rfl, received_rsaKeyWith]
  rfl

/-- A local bundle of `RSA_key(key=o, ...)` keys, each with material and a writable `kid`. -/
def MaterialOnly (kb : KeyBundle) : Prop :=
  kb.remote = false ∧
    ∀ k ∈ kb._keys, ∃ o use kid, jsonable kid = true ∧ k = rsaKeyWith (.rsa o) use kid

lemma MaterialOnly.fresh : MaterialOnly (KeyBundle.fresh {}) := ⟨rfl, by simp [KeyBundle.fresh]⟩

lemma MaterialOnly.append {kb : KeyBundle} (h : MaterialOnly kb) (o : RsaObj) (use : String)
    (kid : Val) (hkid : jsonable kid = true) : MaterialOnly (kb.append (rsaKeyWith (.rsa o) use kid)) := by
  refine ⟨h.1, fun k hk => ?_⟩
  rcases List.mem_append.mp hk with hk | hk
  · exact h.2 k hk
  · exact ⟨o, use, kid, hkid, List.mem_singleton.mp hk⟩

lemma keybundleFromLocalFile_materialOnly (fs : Fs) (filename typ : String) (usage : List String)
    (kb : KeyBundle) (h : keybundleFromLocalFile lib fs filename typ usage = .ok kb) :
    MaterialOnly kb := by
  have hinit : KeyBundle.init lib fs {} = .ok (KeyBundle.fresh {}) := rfl
  have hrest : ∀ (o : RsaObj) (rest : List String) (kb : KeyBundle), MaterialOnly kb →
      MaterialOnly (rest.foldl (fun kb use => kb.append (rsaKeyWith (.rsa o) use (.str ""))) kb) := by
    intro o rest
    induction rest with
    | nil => exact fun _ h => h
    | cons use rest ih => exact fun kb h => ih _ (h.append o use _ rfl)
  unfold keybundleFromLocalFile at h
  split_ifs at h
  · rw [hinit] at h
    cases ho : fs.rsaLoad filename with
    | error e => rw [ho] at h; cases h
    | ok o =>
      rw [ho] at h
      cases usage with
      | nil => cases h
      | cons u rest =>
        cases h
        exact hrest o rest _ (MaterialOnly.fresh.append o u _ rfl)

lemma keySetupStep_materialOnly (load create : String → Except Exc RsaObj)
    (kwargs : Dict (Option Entry)) (usage : String) (acc acc' : KeyBundle × Int)
    (h : MaterialOnly acc.1) (hstep : keySetupStep load create kwargs acc usage = .ok acc') :
    MaterialOnly acc'.1 := by
  unfold keySetupStep at hstep
  split at hstep
  · split at hstep
    · cases hstep
    · split_ifs at hstep
      · cases ho : (tryCatch (load usage) fun _ => create usage : Except Exc RsaObj) <;>
          rw [ho] at hstep <;> cases hstep
        exact (h.append _ _ _ (by rfl)).append _ _ _ (by rfl)
      · cases ho : (tryCatch (load usage) fun _ => create usage : Except Exc RsaObj) <;>
          rw [ho] at hstep <;> cases hstep
        exact h.append _ _ _ (by rfl)
      · cases hstep
        exact h
  · cases hstep
    exact h

lemma foldlM_keySetupStep (load create : String → Except Exc RsaObj) (kwargs : Dict (Option Entry)) :
    ∀ (usages : List String) (acc acc' : KeyBundle × Int), MaterialOnly acc.1 →
      usages.foldlM (keySetupStep load create kwargs) acc = .ok acc' → MaterialOnly acc'.1
  | [], acc, acc', h, hrun => by cases hrun; exact h
  | u :: us, acc, acc', h, hrun => by
    simp only [List.foldlM] at hrun
    cases hs : keySetupStep load create kwargs acc u with
    | error e => rw [hs] at hrun; cases hrun
    | ok a =>
      rw [hs] at hrun
      exact foldlM_keySetupStep load create kwargs us a acc'
        (keySetupStep_materialOnly load create kwargs u acc a h hs) hrun

lemma keySetup_materialOnly (load create : String → Except Exc RsaObj)
    (kwargs : Dict (Option Entry)) (kb : KeyBundle) (h : keySetup load create kwargs = .ok kb) :
    MaterialOnly kb := by
  unfold keySetup at h
  cases hrun : ["sig", "enc"].foldlM (keySetupStep load create kwargs) (KeyBundle.fresh {}, 1) with
  | error e => rw [hrun] at h; cases h
  | ok acc =>
    rw [hrun] at h
    cases h
    exact foldlM_keySetupStep load create kwargs _ _ acc MaterialOnly.fresh hrun

lemma decodeAll_toDict (ks : List Key) (f : Key → Key)
    (h : ∀ k ∈ ks, decodeKey lib k.toDict = .ok (f k)) :
    decodeAll lib (ks.map Key.toDict) = (ks.map f, none) := by
  induction ks with
  | nil => rfl
  | cons k ks ih =>
    simp only [List.map_cons, decodeAll, h k (List.mem_cons_self _ _),
      ih fun k' hk' => h k' (List.mem_cons_of_mem _ hk')]

lemma jsonable_toDict_rsaKeyWith (key : Val) (use : String) (kid : Val) (hkid : jsonable kid = true) :
    ∀ p ∈ (rsaKeyWith key use kid).toDict.entries, jsonable p.2 = true := by
  intro p hp
  simp only [Key.toDict, List.mem_map, List.mem_filter] at hp
  obtain ⟨m, ⟨hm, -⟩, rfl⟩ := hp
  simp only [rsaKeyWith, Key.cls, KeyClass.blank, KeyClass.members, List.mem_cons,
    List.mem_singleton, List.not_mem_nil, or_false] at hm
  rcases hm with rfl | rfl | rfl | rfl | rfl | rfl <;> first | exact hkid | rfl

/-- `keybundle_from_local_file` and `key_setup` publish no `n` or `e`. -/
theorem local_rsa_keys_published_without_numbers (w : World) (kb : KeyBundle)
    (hkb : (∃ fs filename typ usage, keybundleFromLocalFile lib fs filename typ usage = .ok kb) ∨
      ∃ load create kwargs, keySetup load create kwargs = .ok kb) :
    jwks lib w kb = .ok (kb._keys.map Key.toDict) kb ∧
    decodeAll lib (kb._keys.map Key.toDict) = (kb._keys.map received, none) ∧
    ∀ k ∈ kb._keys, (∃ o, k.key = .rsa o) ∧ k.toDict.get? "n" = none ∧ k.toDict.get? "e" = none ∧
      (received k).variant = .rsa (.str "") (.str "") ∧ (received k).key = .str "" := by
  have h : MaterialOnly kb := by
    rcases hkb with ⟨fs, filename, typ, usage, h⟩ | ⟨load, create, kwargs, h⟩
    · exact keybundleFromLocalFile_materialOnly lib fs filename typ usage kb h
    · exact keySetup_materialOnly load create kwargs kb h
  refine ⟨?_, decodeAll_toDict lib _ _ fun k hk => ?_, fun k hk => ?_⟩ <;>
    try obtain ⟨o, use, kid, hkid, rfl⟩ := h.2 k hk
  · rw [jwks_eq, uptodate_local lib w kb h.1]
    have hall : (kb._keys.map Key.toDict).all (fun d => d.entries.all fun p => jsonable p.2) := by
      simp only [List.all_eq_true, List.mem_map]
      rintro d ⟨k, hk, rfl⟩
      obtain ⟨o, use, kid, hkid, rfl⟩ := h.2 k hk
      exact jsonable_toDict_rsaKeyWith _ use kid hkid
    simp only [hall, if_true]
  · exact (decode_rsaKeyWith lib _ use kid).2.2.trans (by rw [received_rsaKeyWith])
  · obtain ⟨hn, he, -⟩ := decode_rsaKeyWith lib (.rsa o) use kid
    exact ⟨⟨o, rfl⟩, hn, he, by rw [received_rsaKeyWith]; rfl, by rw [received_rsaKeyWith]; rfl⟩

def pemKey : RsaObj := ⟨7, 3233, 17⟩

def pemFs : Fs := ⟨fun _ => .error .valueError, fun _ => .ok pemKey⟩

def pemBundle : KeyBundle :=
  { KeyBundle.fresh {} with
    _keys := [rsaKeyWith (.rsa pemKey) "sig" (.str ""), rsaKeyWith (.rsa pemKey) "enc" (.str "")] }

theorem local_rsa_keys_published_without_numbers_at_pem :
    keybundleFromLocalFile Refresh.sampleLib pemFs "keys/rsa.pem" "RSA" ["sig", "enc"] = .ok pemBundle ∧
    jwks Refresh.sampleLib (Refresh.sampleWorld fun _ => .error .transport) pemBundle =
      .ok (pemBundle._keys.map Key.toDict) pemBundle ∧
    decodeAll Refresh.sampleLib (pemBundle._keys.map Key.toDict) = (pemBundle._keys.map received, none) ∧
    ∀ k ∈ pemBundle._keys, (∃ o, k.key = .rsa o) ∧ k.toDict.get? "n" = none ∧
      k.toDict.get? "e" = none ∧ (received k).variant = .rsa (.str "") (.str "") ∧
      (received k).key = .str "" :=
  ⟨rfl, local_rsa_keys_published_without_numbers Refresh.sampleLib _ pemBundle
    (.inl ⟨pemFs, "keys/rsa.pem", "RSA", ["sig", "enc"], rfl⟩)⟩

end OicKeyio.Publish
