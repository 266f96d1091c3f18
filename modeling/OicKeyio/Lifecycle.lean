import OicKeyio.Publish
import OicKeyio.Cache
import OicKeyio.KeyJar

set_option autoImplicit false

/-!
# What a bundle publishes over its life

A peer rebuilds a key whole from its `to_dict()` when the key came out of
`dc()` and its `kty` names its class. `KeyBundle.__init__` makes only such keys,
except from a DER file of a key type other than RSA: there `K2C[keytype]()`
keeps its class's default `kty`, `"rsa"` for `EC_key` and `""` for `HMAC_key`.
A read, a forced `update()`, `do_keys` and `remove` keep the property, since a
reload decodes with `do_keys` or reloads the same RSA key file; only `append`
takes a key from outside. `dump_jwks` reads a list of bundles and writes their
keys, and a bundle that loads that file gets every key back.
-/
namespace OicKeyio.Lifecycle
open KeyBundle Publish Cache

variable (lib : Lib)

/-- A key a peer rebuilds whole from its `to_dict()`: a `dc()` output naming its class. -/
def PublishableKey (k : Key) : Prop := (∃ k0 : Key, k0.dc lib = .ok k) ∧ k2c k.kty = some k.cls

def Publishable (b : KeyBundle) : Prop := ∀ k ∈ b._keys, PublishableKey lib k

def DerRsa (b : KeyBundle) : Prop :=
  b.remote = false → b.source.isSome → b.fileformat = "der" → b.keytype = "rsa"

lemma Publishable.of_keys {b b' : KeyBundle} (hb : Publishable lib b) (new : List Key)
    (hnew : ∀ k ∈ new, PublishableKey lib k) (h : b'._keys = b._keys ++ new) :
    Publishable lib b' := by
  intro k hk
  rw [h, List.mem_append] at hk
  exact hk.elim (hb k) (hnew k)

lemma Publishable.nil {b : KeyBundle} (h : b._keys = []) : Publishable lib b := by
  intro k hk
  rw [h] at hk
  cases hk

lemma publishableKey_decodeKey {inst : Entry} {k : Key} (h : decodeKey lib inst = .ok k) :
    PublishableKey lib k := by
  obtain ⟨-, -, k0, -, -, -, hdc⟩ := decodeKey_ok lib h
  exact ⟨⟨k0, hdc⟩, k2c_of_decodeKey lib h⟩

lemma decodeAll_publishable (es : List Entry) : ∀ k ∈ (decodeAll lib es).1, PublishableKey lib k := by
  induction es with
  | nil => intro k hk; cases hk
  | cons inst es ih =>
    intro k hk
    cases h : decodeKey lib inst with
    | error e => simp [decodeAll, h] at hk
    | ok k' =>
      simp only [decodeAll, h, List.mem_cons] at hk
      rcases hk with rfl | hk
      · exact publishableKey_decodeKey lib h
      · exact ih k hk

/-- What a loading method may do: keep the configuration and append publishable keys. -/
def Keeps (b b' : KeyBundle) : Prop :=
  config b' = config b ∧ ∃ new, b'._keys = b._keys ++ new ∧ ∀ k ∈ new, PublishableKey lib k

lemma Keeps.publishable {b b' : KeyBundle} (h : Keeps lib b b') (hb : Publishable lib b) :
    Publishable lib b' := by
  obtain ⟨-, new, hk, hnew⟩ := h
  exact hb.of_keys lib new hnew hk

lemma Keeps.of_append {b : KeyBundle} (new : List Key) (hnew : ∀ k ∈ new, PublishableKey lib k) :
    Keeps lib b { b with _keys := b._keys ++ new } :=
  ⟨rfl, new, rfl, hnew⟩

lemma Keeps.refl (b : KeyBundle) : Keeps lib b b := ⟨rfl, [], by simp, by simp⟩

lemma doKeys_keeps (es : List Entry) (b : KeyBundle) : Keeps lib b (stateOf (doKeys lib es b)) := by
  rw [doKeys_eq, stateOf_outcome]
  exact Keeps.of_append lib _ (decodeAll_publishable lib es)

lemma doRemote_keeps (w : World) (b : KeyBundle) : Keeps lib b (stateOf (doRemote lib w b)) := by
  obtain ⟨ks, et, cc, h⟩ := doRemote_state lib w b
  refine ⟨by rw [h]; rfl, ?_⟩
  rw [doRemote_eq]
  cases w.net b.request with
  | error e => exact ⟨[], by simp [stateOf], by simp⟩
  | ok r =>
    dsimp only
    split_ifs
    · exact ⟨[], by simp [stateOf], by simp⟩
    · cases r.text with
      | error e => exact ⟨[], by simp [stateOf], by simp⟩
      | ok es =>
        dsimp only
        rw [stateOf_outcome]
        cases (decodeAll lib es).2 <;> exact ⟨_, rfl, decodeAll_publishable lib es⟩
    · exact ⟨[], by simp [stateOf], by simp⟩

lemma doLocalJwk_keeps (fs : Fs) (src : String) (b : KeyBundle) :
    Keeps lib b (stateOf (doLocalJwk lib fs src b)) := by
  simp only [doLocalJwk, run_bind]
  cases fs.jwkFile src with
  | error e => exact Keeps.refl lib b
  | ok es => exact doKeys_keeps lib es b

lemma derKeys_keeps (bkey : Val) :
    ∀ (uses : List String) (b : KeyBundle), Keeps lib b (stateOf (derKeys lib bkey "rsa" uses b))
  | [], b => Keeps.refl lib b
  | use :: rest, b => by
    have hcls : (k2c "rsa").elim (.error (.keyError "rsa")) .ok = (.ok .rsaKey : Except Exc KeyClass) :=
      rfl
    simp only [derKeys, run_bind, hcls, run_ofExcept_ok]
    rcases hd : ({ KeyClass.rsaKey.blank with key := bkey } : Key).decomp lib with _ | k
    · exact Keeps.refl lib b
    simp only [run_ofExcept_ok, run_bind, run_modify]
    have hk : PublishableKey lib { k with use := .str use } := by
      have hdc := derKey_dc lib bkey use k hd
      obtain ⟨hkty, hcls⟩ := dc_cls lib hdc
      exact ⟨⟨_, hdc⟩, by rw [hcls]; exact hkty ▸ rfl⟩
    obtain ⟨hc, new, hnew, hall⟩ := derKeys_keeps bkey rest { b with _keys := b._keys ++ [{ k with use := .str use }] }
    exact ⟨hc, _ :: new, by rw [hnew]; simp, List.forall_mem_cons.mpr ⟨hk, hall⟩⟩

lemma doLocalDer_keeps (fs : Fs) (src : String) (keyusage : Option (List String)) (b : KeyBundle) :
    Keeps lib b (stateOf (doLocalDer lib fs src "rsa" keyusage b)) := by
  simp only [doLocalDer, if_true, run_bind]
  cases fs.rsaLoad src with
  | error e => exact Keeps.refl lib b
  | ok o => exact derKeys_keeps lib (.rsa o) _ b

lemma reload_keeps (w : World) (b : KeyBundle) (src : String) (hder : DerRsa b)
    (hsrc : b.source = some src) :
    Keeps lib { b with _keys := [] } (stateOf (reload lib w b src { b with _keys := [] })) := by
  unfold reload
  split_ifs with hr hj hd
  · exact doLocalJwk_keeps lib w.fs src _
  · rw [hder hr (by simp [hsrc]) hd]
    exact doLocalDer_keeps lib w.fs src _ _
  · exact Keeps.refl lib _
  · exact doRemote_keeps lib w _

lemma update_sound (w : World) (b : KeyBundle) (hder : DerRsa b) (hb : Publishable lib b) :
    Publishable lib (stateOf (update lib w b)) ∧ config (stateOf (update lib w b)) = config b := by
  rw [update_eq]
  split
  · rename_i src hs
    split_ifs
    · have h := reload_keeps lib w b src hder hs
      exact ⟨h.publishable lib (Publishable.nil lib rfl), h.1⟩
    · exact ⟨hb, rfl⟩
  · exact ⟨hb, rfl⟩

lemma refreshed_publishable (w : World) (b : KeyBundle) (hb : Publishable lib b) :
    Publishable lib (refreshed lib w b) := by
  rw [refreshed, uptodate_fetch]
  split_ifs
  · exact (doRemote_keeps lib w _).publishable lib (Publishable.nil lib rfl)
  · exact hb

lemma DerRsa.of_config {b b' : KeyBundle} (h : config b' = config b) (hb : DerRsa b) : DerRsa b' := by
  simp only [config, Config.mk.injEq] at h
  obtain ⟨hr, -, -, hs, hf, hk, -⟩ := h
  intro h1 h2 h3
  rw [hk]
  exact hb (hr ▸ h1) (hs ▸ h2) (hf ▸ h3)

def loadsDerNonRsa (a : BundleArgs) : Bool :=
  a.keys.isEmpty && Py.startswith a.source "file://" && Py.lower a.fileformat == "der" &&
    Py.lower a.keytype != "rsa"

lemma loadsDerNonRsa_jwk (a : BundleArgs) (h : a.fileformat = "jwk") : loadsDerNonRsa a = false := by
  simp [loadsDerNonRsa, h, show Py.lower "jwk" = "jwk" from rfl]

lemma loadsDerNonRsa_keys (a : BundleArgs) (h : a.keys ≠ []) : loadsDerNonRsa a = false := by
  simp [loadsDerNonRsa, List.isEmpty_iff, h]

lemma build_run {m : EStateM Exc KeyBundle Unit} {b kb : KeyBundle} (h : build m b = .ok kb) :
    m b = .ok () kb := by
  unfold build at h
  cases hm : m b <;> rw [hm] at h <;> cases h
  rfl

lemma build_ok {m : EStateM Exc KeyBundle Unit} {b kb : KeyBundle} (h : build m b = .ok kb) :
    stateOf (m b) = kb := by
  rw [build_run h]; rfl

lemma loadLocal_sound (fs : Fs) (b kb : KeyBundle) (hkeys : b._keys = [])
    (hder : b.fileformat = "der" → b.keytype = "rsa") (h : loadLocal lib fs b = .ok kb) :
    Publishable lib kb ∧ DerRsa kb := by
  have hsound : ∀ kb', Keeps lib b kb' → Publishable lib kb' ∧ DerRsa kb' := fun kb' hk =>
    ⟨hk.publishable lib (Publishable.nil lib hkeys), DerRsa.of_config hk.1 fun _ _ hd => hder hd⟩
  unfold loadLocal at h
  split at h
  · rename_i src _
    split_ifs at h with hj hd
    · exact hsound kb (build_ok h ▸ doLocalJwk_keeps lib fs src b)
    · rw [hder hd] at h
      exact hsound kb (build_ok h ▸ doLocalDer_keeps lib fs src b.keyusage b)
    · cases h
      exact hsound b (Keeps.refl lib b)
  · cases h
    exact hsound b (Keeps.refl lib b)

/-- What `KeyBundle(...)` builds, but from a DER file of another key type, is sound. -/
lemma init_sound (fs : Fs) (a : BundleArgs) (kb : KeyBundle) (h : init lib fs a = .ok kb)
    (hder : loadsDerNonRsa a = false) : Publishable lib kb ∧ DerRsa kb := by
  have hfresh : DerRsa (fresh a) := fun _ hs => by simp [fresh] at hs
  unfold init at h
  split_ifs at h with hk hf hh hs
  · have hkeeps := build_ok h ▸ doKeys_keeps lib a.keys (fresh a)
    exact ⟨hkeeps.publishable lib (Publishable.nil lib rfl), hfresh.of_config hkeeps.1⟩
  · refine loadLocal_sound lib fs _ kb rfl (fun hd => ?_) h
    simp only [loadsDerNonRsa, List.isEmpty_iff.mpr (not_not.mp hk), hf, Bool.true_and] at hder
    simp only [fresh] at hd ⊢
    simpa [hd] using hder
  · cases h
    exact ⟨Publishable.nil lib rfl, fun hr => by simp at hr⟩
  · cases h
    exact ⟨Publishable.nil lib rfl, hfresh⟩

/-- A method called on a bundle, with what it reads from outside. -/
inductive Step where
  | read (w : World)
  | update (w : World)
  | doKeys (keys : List Entry)
  | doLocalJwk (fs : Fs) (filename : String)
  | doLocalDer (fs : Fs) (filename keytype : String) (keyusage : Option (List String))
  | doRemote (w : World)
  | remove (typ : String) (val : Val)
  | append (key : Key)

def Step.apply : Step → KeyBundle → KeyBundle
  | .read w, b => refreshed lib w b
  | .update w, b => stateOf (KeyBundle.update lib w b)
  | .doKeys es, b => stateOf (KeyBundle.doKeys lib es b)
  | .doLocalJwk fs filename, b => stateOf (KeyBundle.doLocalJwk lib fs filename b)
  | .doLocalDer fs filename keytype keyusage, b =>
    stateOf (KeyBundle.doLocalDer lib fs filename keytype keyusage b)
  | .doRemote w, b => stateOf (KeyBundle.doRemote lib w b)
  | .remove typ val, b => b.remove typ val
  | .append key, b => b.append key

def runSteps (steps : List Step) (b : KeyBundle) : KeyBundle :=
  steps.foldl (fun b s => s.apply lib b) b

/-- The methods that take keys only from the bundle's own loaders. -/
def Step.Admitted : Step → Prop
  | .doLocalDer _ _ keytype _ => keytype = "rsa"
  | .append key => PublishableKey lib key
  | _ => True

lemma remove_publishable (b : KeyBundle) (typ : String) (val : Val) (hb : Publishable lib b) :
    Publishable lib (b.remove typ val) := by
  unfold KeyBundle.remove
  split_ifs <;> exact fun k hk => hb k (List.mem_of_mem_filter hk)

lemma config_remove (b : KeyBundle) (typ : String) (val : Val) : config (b.remove typ val) = config b := by
  unfold KeyBundle.remove
  split_ifs <;> rfl

lemma Keeps.sound {b b' : KeyBundle} (h : Keeps lib b b') (hb : Publishable lib b) :
    Publishable lib b' ∧ config b' = config b :=
  ⟨h.publishable lib hb, h.1⟩

/-- The step lemma: an admitted method keeps the configuration and publishable keys. -/
lemma Step.sound (s : Step) (hs : s.Admitted lib) (b : KeyBundle) (hb : Publishable lib b)
    (hd : DerRsa b) : Publishable lib (s.apply lib b) ∧ config (s.apply lib b) = config b := by
  cases s with
  | read w => exact ⟨refreshed_publishable lib w b hb, config_refreshed lib w b⟩
  | update w => exact update_sound lib w b hd hb
  | doKeys es => exact (doKeys_keeps lib es b).sound lib hb
  | doLocalJwk fs filename => exact (doLocalJwk_keeps lib fs filename b).sound lib hb
  | doLocalDer fs filename keytype keyusage =>
    obtain rfl : keytype = "rsa" := hs
    exact (doLocalDer_keeps lib fs filename keyusage b).sound lib hb
  | doRemote w => exact (doRemote_keeps lib w b).sound lib hb
  | remove typ val => exact ⟨remove_publishable lib b typ val hb, config_remove b typ val⟩
  | append key =>
    exact (Keeps.of_append lib [key] fun k hk => List.mem_singleton.mp hk ▸ hs).sound lib hb

/-- The run lemma. -/
lemma runSteps_sound (steps : List Step) (hs : ∀ s ∈ steps, s.Admitted lib) (b : KeyBundle)
    (hb : Publishable lib b) (hd : DerRsa b) :
    Publishable lib (runSteps lib steps b) ∧ config (runSteps lib steps b) = config b := by
  induction steps generalizing b with
  | nil => exact ⟨hb, rfl⟩
  | cons s steps ih =>
    obtain ⟨hb', hc⟩ := s.sound lib (hs s (List.mem_cons_self _ _)) b hb hd
    obtain ⟨hb'', hc'⟩ := ih (fun s' h => hs s' (List.mem_cons_of_mem _ h)) _ hb' (hd.of_config hc)
    exact ⟨hb'', hc'.trans hc⟩

/-- `k'` is what a peer rebuilds of `k`: its members, and the numbers of its material. -/
def Rebuilds (k k' : Key) : Prop :=
  { k' with key := .str "" } = received k ∧
    ∀ o, k.cls = .rsaKey → k.key = .rsa o → ∃ o', k'.key = .rsa o' ∧ o'.n = o.n ∧ o'.e = o.e

section Inverts

variable {lib} (hlib : Inverts lib)
include hlib

lemma PublishableKey.rebuilt {k : Key} (hk : PublishableKey lib k) :
    ∃ k', decodeKey lib k.toDict = .ok k' ∧ Rebuilds k k' := by
  obtain ⟨⟨k0, hdc⟩, hcls⟩ := hk
  rw [decodeKey_toDict lib k hcls]
  exact dc_received lib hlib hdc

lemma decodeAll_rebuilds :
    ∀ ks : List Key, (∀ k ∈ ks, PublishableKey lib k) →
      (decodeAll lib (ks.map Key.toDict)).2 = none ∧
        List.Forall₂ Rebuilds ks (decodeAll lib (ks.map Key.toDict)).1
  | [], _ => ⟨rfl, .nil⟩
  | k :: ks, hks => by
    obtain ⟨k', hdec, hk'⟩ := (hks k (List.mem_cons_self _ _)).rebuilt hlib
    obtain ⟨hnone, hrest⟩ := decodeAll_rebuilds ks fun k h => hks k (List.mem_cons_of_mem _ h)
    simp only [List.map_cons, decodeAll, hdec]
    exact ⟨hnone, .cons hk' hrest⟩

/-- A bundle `KeyBundle(...)` builds publishes every key whole after any admitted run. -/
theorem bundle_run_publishes (fs : Fs) (a : BundleArgs) (kb : KeyBundle)
    (h : init lib fs a = .ok kb) (hder : loadsDerNonRsa a = false) (steps : List Step)
    (hs : ∀ s ∈ steps, s.Admitted lib) :
    ∀ k ∈ (runSteps lib steps kb)._keys, ∃ k', decodeKey lib k.toDict = .ok k' ∧ Rebuilds k k' := by
  obtain ⟨hb, hd⟩ := init_sound lib fs a kb h hder
  exact fun k hk => ((runSteps_sound lib steps hs kb hb hd).1 k hk).rebuilt hlib

end Inverts

def derWorld : World := { Refresh.sampleWorld (fun _ => .error .transport) with fs := derFs }

def derRun : List Step :=
  [.update derWorld, .remove "RSA" (.str ""), .doLocalDer derFs "keys/rsa.der" "rsa" (some ["sig"])]

theorem bundle_run_publishes_at_der :
    Inverts unaryLib ∧
      init unaryLib derFs { source := "file://" ++ "keys/rsa.der", fileformat := "der" } =
        .ok derBundle ∧
      loadsDerNonRsa { source := "file://" ++ "keys/rsa.der", fileformat := "der" } = false ∧
      (∀ s ∈ derRun, s.Admitted unaryLib) ∧
      ∀ k ∈ (runSteps unaryLib derRun derBundle)._keys,
        ∃ k', decodeKey unaryLib k.toDict = .ok k' ∧ Rebuilds k k' :=
  have hs : ∀ s ∈ derRun, s.Admitted unaryLib := by simp [derRun, Step.Admitted]
  ⟨unaryLib_inverts, rfl, rfl, hs,
    bundle_run_publishes unaryLib_inverts derFs
      { source := "file://" ++ "keys/rsa.der", fileformat := "der" } derBundle rfl rfl derRun hs⟩

/-- `dump_jwks(kbl, target)`, the text it writes as `json.loads` reads it back. -/
def dumpJwks (w : World) : EStateM Exc (List KeyBundle) (List Entry) := fun kbl =>
  match KeyJar.readAll (keys lib w) kbl with
  | .error e kbl' => .error e kbl'
  | .ok kss kbl' =>
    let ds := kss.flatten.map Key.toDict
    if ds.all fun d => d.entries.all fun p => jsonable p.2 then .ok ds kbl'
    else .error (.typeError "is not JSON serializable") kbl'

lemma readAll_keys (w : World) :
    ∀ (kbl : List KeyBundle) {kss : List (List Key)} {kbl' : List KeyBundle},
      KeyJar.readAll (keys lib w) kbl = .ok kss kbl' →
        kbl' = kbl.map (refreshed lib w) ∧ kss = kbl'.map (·._keys)
  | [], _, _, h => by cases h; exact ⟨rfl, rfl⟩
  | b :: bs, kss, kbl', h => by
    simp only [KeyJar.readAll, keys_eq] at h
    cases hu : uptodate lib w b with
    | error e b' => rw [hu] at h; cases h
    | ok u b' =>
      rw [hu] at h
      dsimp only [afterRefresh] at h
      cases hr : KeyJar.readAll (keys lib w) bs with
      | error e bs' => rw [hr] at h; cases h
      | ok kss' bs' =>
        rw [hr] at h
        cases h
        obtain ⟨h1, h2⟩ := readAll_keys w bs hr
        have hb : b' = refreshed lib w b := by rw [refreshed, hu]; rfl
        exact ⟨by rw [h1, hb]; rfl, by rw [h2, hb]; rfl⟩

lemma dumpJwks_ok {w : World} {kbl kbl' : List KeyBundle} {ds : List Entry}
    (h : dumpJwks lib w kbl = .ok ds kbl') :
    kbl' = kbl.map (refreshed lib w) ∧ ds = (kbl'.flatMap (·._keys)).map Key.toDict := by
  unfold dumpJwks at h
  cases hr : KeyJar.readAll (keys lib w) kbl with
  | error e kbl'' => rw [hr] at h; cases h
  | ok kss kbl'' =>
    rw [hr] at h
    dsimp only at h
    split_ifs at h
    cases h
    obtain ⟨h1, h2⟩ := readAll_keys lib w kbl hr
    exact ⟨h1, by rw [h2]; rfl⟩

lemma init_jwk_file (fs : Fs) (target : String) (ds : List Entry) (hfile : fs.jwkFile target = .ok ds) :
    init lib fs { source := "file://" ++ target } =
      build (doKeys lib ds) { fresh {} with source := some target } := by
  have hdrop : Py.drop ("file://" ++ target) 7 = target := Py.drop_append _ _ _ rfl
  have hjwk : Py.lower "jwk" = "jwk" := rfl
  simp only [init, Py.startswith_append, hdrop, ne_eq, not_true, if_false, if_true, loadLocal,
    fresh, hjwk]
  simp [build, doLocalJwk, hfile]

section Inverts

variable {lib} (hlib : Inverts lib)
include hlib

/-- `dump_jwks` round-trips through `KeyBundle(source="file://" + target)`. -/
theorem dump_jwks_round_trip (w : World) (kbl kbl' : List KeyBundle) (ds : List Entry)
    (hkbl : ∀ b ∈ kbl, Publishable lib b) (h : dumpJwks lib w kbl = .ok ds kbl')
    (fs : Fs) (target : String) (hfile : fs.jwkFile target = .ok ds) :
    ∃ kb, init lib fs { source := "file://" ++ target } = .ok kb ∧
      List.Forall₂ Rebuilds (kbl'.flatMap (·._keys)) kb._keys := by
  obtain ⟨hkbl', hds⟩ := dumpJwks_ok lib h
  have hpub : ∀ k ∈ kbl'.flatMap (·._keys), PublishableKey lib k := by
    intro k hk
    obtain ⟨b', hb', hk⟩ := List.mem_flatMap.mp hk
    rw [hkbl', List.mem_map] at hb'
    obtain ⟨b, hb, rfl⟩ := hb'
    exact refreshed_publishable lib w b (hkbl b hb) k hk
  obtain ⟨hnone, hrb⟩ := decodeAll_rebuilds hlib _ hpub
  rw [init_jwk_file lib fs target ds hfile, build, doKeys_eq, hds, hnone]
  exact ⟨_, rfl, by simpa only [fresh, List.nil_append] using hrb⟩

end Inverts

def dumpedFs : Fs := ⟨fun _ => .ok (derBundle._keys.map Key.toDict), derFs.rsaLoad⟩

theorem dump_jwks_round_trip_at_der :
    Inverts unaryLib ∧ (∀ b ∈ [derBundle], Publishable unaryLib b) ∧
      dumpJwks unaryLib derWorld [derBundle] = .ok (derBundle._keys.map Key.toDict) [derBundle] ∧
      dumpedFs.jwkFile "jwks.json" = .ok (derBundle._keys.map Key.toDict) ∧
      ∃ kb, init unaryLib dumpedFs { source := "file://" ++ "jwks.json" } = .ok kb ∧
        List.Forall₂ Rebuilds ([derBundle].flatMap (·._keys)) kb._keys :=
  have hpub : ∀ b ∈ [derBundle], Publishable unaryLib b := by
    simpa using (init_sound unaryLib derFs { source := "file://" ++ "keys/rsa.der", fileformat := "der" }
      derBundle rfl rfl).1
  ⟨unaryLib_inverts, hpub, rfl, rfl,
    dump_jwks_round_trip unaryLib_inverts derWorld [derBundle] [derBundle] _ hpub rfl dumpedFs
      "jwks.json" rfl⟩

end OicKeyio.Lifecycle
