import OicKeyio.Lifecycle

set_option autoImplicit false

/-!
# Forced reloads of local bundles

`update()` empties `_keys` and runs the loader of the bundle's source again. A
local loader (`do_local_jwk`, `do_local_der`) changes nothing but `_keys`, and
what it does depends on the bundle's configuration and the files only, not on
the keys the bundle held. `rsa_load` and `new_pub_key` make a new RSA object on
every call, so the model compares two calls up to object identity: `erase`
forgets which object a key holds and keeps its numbers. A second `update()` of
a local bundle, from the same files, repeats the first up to identity,
exception included, and `update()` right after `KeyBundle(...)` loaded a local
source leaves the bundle as it was up to identity.
-/
namespace OicKeyio

def RsaObj.erase (o : RsaObj) : RsaObj := { o with handle := 0 }

def Val.erase : Val → Val
  | .rsa o => .rsa o.erase
  | v => v

/-- The loaders put the RSA objects they make in `key` and nowhere else. -/
def Key.erase (k : Key) : Key := { k with key := k.key.erase }

def KeyBundle.erase (b : KeyBundle) : KeyBundle := { b with _keys := b._keys.map Key.erase }

def eraseResult : EStateM.Result Exc KeyBundle Unit → EStateM.Result Exc KeyBundle Unit
  | .ok a b => .ok a b.erase
  | .error e b => .error e b.erase

/-- Two calls of the library that differ at most in which objects `new_pub_key` makes. -/
def Lib.SameUpToObjects (lib lib' : Lib) : Prop :=
  (∀ e n, (lib.newPubKey e n).map RsaObj.erase = (lib'.newPubKey e n).map RsaObj.erase) ∧
    lib.longToBase64 = lib'.longToBase64

/-- The same files, read by an `rsa_load` that may make another object. -/
def Fs.SameUpToObjects (fs fs' : Fs) : Prop :=
  fs.jwkFile = fs'.jwkFile ∧
    ∀ f, (fs.rsaLoad f).map RsaObj.erase = (fs'.rsaLoad f).map RsaObj.erase

@[simp] lemma Val.erase_erase (v : Val) : v.erase.erase = v.erase := by
  cases v <;> rfl

@[simp] lemma Key.erase_erase (k : Key) : k.erase.erase = k.erase := by
  simp [Key.erase]

@[simp] lemma KeyBundle.erase_erase (b : KeyBundle) : b.erase.erase = b.erase := by
  simp [KeyBundle.erase, Function.comp_def]

@[simp] lemma eraseResult_ok (b : KeyBundle) : eraseResult (.ok () b) = .ok () b.erase := rfl

@[simp] lemma eraseResult_error (e : Exc) (b : KeyBundle) :
    eraseResult (.error e b) = .error e b.erase := rfl

lemma eraseResult_outcome (o : Option Exc) (b : KeyBundle) :
    eraseResult (outcome o b) = outcome o b.erase := by
  cases o <;> rfl

lemma KeyBundle.erase_appendKeys {b b' : KeyBundle} {ks ks' : List Key} (hb : b.erase = b'.erase)
    (hks : ks.map Key.erase = ks'.map Key.erase) :
    { b with _keys := b._keys ++ ks }.erase = { b' with _keys := b'._keys ++ ks' }.erase := by
  have h : ∀ (c : KeyBundle) (ls : List Key),
      { c with _keys := c._keys ++ ls }.erase =
        { c.erase with _keys := c.erase._keys ++ ls.map Key.erase } := fun c ls => by
    simp [KeyBundle.erase]
  rw [h, h, hb, hks]

end OicKeyio

namespace OicKeyio.Reload
open KeyBundle Cache Publish Lifecycle

variable (lib : Lib)

/-- A method that changes nothing but `_keys`, whether it returns or raises. -/
def OnlyKeys {α : Type} (m : EStateM Exc KeyBundle α) : Prop :=
  ∀ b, ∃ ks, stateOf (m b) = { b with _keys := ks }

section OnlyKeys

variable {α β : Type}

lemma OnlyKeys.pure (a : α) : OnlyKeys (Pure.pure a : EStateM Exc KeyBundle α) :=
  fun b => ⟨b._keys, rfl⟩

lemma OnlyKeys.ofExcept (x : Except Exc α) :
    OnlyKeys (MonadExcept.ofExcept x : EStateM Exc KeyBundle α) := fun b => by
  cases x <;> exact ⟨b._keys, rfl⟩

lemma OnlyKeys.bind {m : EStateM Exc KeyBundle α} {f : α → EStateM Exc KeyBundle β}
    (hm : OnlyKeys m) (hf : ∀ a, OnlyKeys (f a)) : OnlyKeys (m >>= f) := fun b => by
  obtain ⟨ks, hks⟩ := hm b
  rw [run_bind]
  cases hr : m b with
  | ok a b' =>
    rw [hr] at hks
    cases hks
    exact hf a _
  | error e b' =>
    rw [hr] at hks
    exact ⟨ks, hks⟩

lemma OnlyKeys.modifyKeys (f : KeyBundle → List Key) :
    OnlyKeys (modify fun b => { b with _keys := f b } : EStateM Exc KeyBundle Unit) :=
  fun b => ⟨f b, rfl⟩

lemma OnlyKeys.map {m : EStateM Exc KeyBundle α} (f : α → β) (hm : OnlyKeys m) :
    OnlyKeys (f <$> m) := fun b => by
  obtain ⟨ks, hks⟩ := hm b
  refine ⟨ks, ?_⟩
  change stateOf (EStateM.map f m b) = _
  unfold EStateM.map
  cases hr : m b <;> rw [hr] at hks <;> exact hks

end OnlyKeys

lemma doKeys_onlyKeys (es : List Entry) : OnlyKeys (doKeys lib es) := fun b =>
  ⟨_, by rw [doKeys_eq, stateOf_outcome]⟩

lemma doLocalJwk_onlyKeys (fs : Fs) (filename : String) : OnlyKeys (doLocalJwk lib fs filename) :=
  (OnlyKeys.ofExcept _).bind (doKeys_onlyKeys lib)

lemma derKeys_onlyKeys (bkey : Val) (keytype : String) :
    ∀ uses : List String, OnlyKeys (derKeys lib bkey keytype uses)
  | [] => OnlyKeys.pure ()
  | _ :: rest => by
    rw [derKeys]
    exact (OnlyKeys.ofExcept _).bind fun _ => (OnlyKeys.ofExcept _).bind fun _ =>
      (OnlyKeys.modifyKeys _).bind fun _ => derKeys_onlyKeys bkey keytype rest

lemma doLocalDer_onlyKeys (fs : Fs) (filename keytype : String) (keyusage : Option (List String)) :
    OnlyKeys (doLocalDer lib fs filename keytype keyusage) := by
  unfold doLocalDer
  dsimp only
  split_ifs
  · exact ((OnlyKeys.ofExcept _).map _).bind fun _ => derKeys_onlyKeys lib _ keytype _
  · exact (OnlyKeys.pure _).bind fun _ => derKeys_onlyKeys lib _ keytype _

/-- The reload of a local bundle changes nothing but `_keys`. -/
lemma reload_onlyKeys (w : World) (b : KeyBundle) (src : String) (hr : b.remote = false) :
    OnlyKeys (reload lib w b src) := by
  unfold reload
  rw [if_pos hr]
  split_ifs
  · exact doLocalJwk_onlyKeys lib w.fs src
  · exact doLocalDer_onlyKeys lib w.fs src b.keytype b.keyusage
  · exact OnlyKeys.pure ()

/-- Runs from bundles equal up to object identity end equal up to identity. -/
def SameRuns (m m' : EStateM Exc KeyBundle Unit) : Prop :=
  ∀ b b', b.erase = b'.erase → eraseResult (m b) = eraseResult (m' b')

section Objects

variable {lib} {lib' : Lib}

/-- `decomp` reads the numbers of the object, never its identity. -/
lemma decomp_erase (hlong : lib.longToBase64 = lib'.longToBase64) (k : Key) :
    (k.decomp lib).map Key.erase = (k.erase.decomp lib').map Key.erase := by
  unfold Key.decomp
  rw [← hlong]
  rcases k with ⟨kty, alg, use, kid, key, variant, hl⟩
  cases variant <;> cases key <;> rfl

lemma decomp_congr (hlong : lib.longToBase64 = lib'.longToBase64) {k k' : Key}
    (hk : k.erase = k'.erase) : (k.decomp lib).map Key.erase = (k'.decomp lib').map Key.erase := by
  rw [decomp_erase hlong, hk, ← decomp_erase rfl]

lemma dc_congr (hlib : lib.SameUpToObjects lib') (k : Key) :
    (k.dc lib).map Key.erase = (k.dc lib').map Key.erase := by
  unfold Key.dc
  split
  · rename_i n e _
    split_ifs
    · exact decomp_congr hlib.2 rfl
    · have h := hlib.1 e.pyStr n.pyStr
      unfold Key.comp
      cases h1 : lib.newPubKey e.pyStr n.pyStr <;> cases h2 : lib'.newPubKey e.pyStr n.pyStr <;>
        simp_all [Except.map, Key.erase, Val.erase]
    · rfl
  · rfl

lemma decodeKey_congr (hlib : lib.SameUpToObjects lib') (inst : Entry) :
    (decodeKey lib inst).map Key.erase = (decodeKey lib' inst).map Key.erase := by
  unfold decodeKey
  split
  · rfl
  · split
    · rfl
    · rename_i cls _
      cases cls.init inst with
      | error e => rfl
      | ok k => exact dc_congr hlib k
  · rfl

lemma decodeAll_congr (hlib : lib.SameUpToObjects lib') :
    ∀ es : List Entry, (decodeAll lib es).1.map Key.erase = (decodeAll lib' es).1.map Key.erase ∧
      (decodeAll lib es).2 = (decodeAll lib' es).2
  | [] => ⟨rfl, rfl⟩
  | inst :: rest => by
    have h := decodeKey_congr hlib inst
    have ih := decodeAll_congr hlib rest
    simp only [decodeAll]
    cases h1 : decodeKey lib inst <;> cases h2 : decodeKey lib' inst <;> simp_all [Except.map]

lemma doKeys_same (hlib : lib.SameUpToObjects lib') (es : List Entry) :
    SameRuns (doKeys lib es) (doKeys lib' es) := fun b b' hb => by
  obtain ⟨hks, hexc⟩ := decodeAll_congr hlib es
  rw [doKeys_eq, doKeys_eq, eraseResult_outcome, eraseResult_outcome, hexc,
    KeyBundle.erase_appendKeys hb hks]

lemma SameRuns.ofExcept_bind {α : Type} (er : α → α) {x x' : Except Exc α}
    (hx : x.map er = x'.map er) {f f' : α → EStateM Exc KeyBundle Unit}
    (hf : ∀ a a', er a = er a' → SameRuns (f a) (f' a')) :
    SameRuns (MonadExcept.ofExcept x >>= f) (MonadExcept.ofExcept x' >>= f') := fun b b' hb => by
  cases x <;> cases x' <;> simp [Except.map] at hx
  · subst hx
    simp [hb]
  · simp only [run_bind, run_ofExcept_ok]
    exact hf _ _ hx b b' hb

lemma derKeys_same (hlong : lib.longToBase64 = lib'.longToBase64) {bkey bkey' : Val}
    (hkey : bkey.erase = bkey'.erase) (keytype : String) :
    ∀ uses, SameRuns (derKeys lib bkey keytype uses) (derKeys lib' bkey' keytype uses)
  | [] => fun b b' hb => by simp [derKeys, hb]
  | use :: rest => by
    rw [derKeys, derKeys]
    refine SameRuns.ofExcept_bind id rfl fun cls cls' (hc : cls = cls') => ?_
    subst hc
    refine SameRuns.ofExcept_bind Key.erase
      (decomp_congr hlong (congrArg (fun v => { cls.blank with key := v }) hkey))
      fun k k' hk b b' hb => ?_
    have huse : [{ k with use := Val.str use }].map Key.erase =
        [{ k' with use := Val.str use }].map Key.erase :=
      congrArg (fun k : Key => [({ k with use := Val.str use } : Key)]) hk
    simp only [run_bind, run_modify]
    exact derKeys_same hlong hkey keytype rest _ _ (KeyBundle.erase_appendKeys hb huse)

variable {fs fs' : Fs}

lemma doLocalJwk_same (hlib : lib.SameUpToObjects lib') (hfs : fs.SameUpToObjects fs')
    (filename : String) : SameRuns (doLocalJwk lib fs filename) (doLocalJwk lib' fs' filename) := by
  unfold doLocalJwk
  rw [← hfs.1]
  exact SameRuns.ofExcept_bind id rfl fun es es' (he : es = es') => he ▸ doKeys_same hlib es

lemma doLocalDer_same (hlib : lib.SameUpToObjects lib') (hfs : fs.SameUpToObjects fs')
    (filename keytype : String) (keyusage : Option (List String)) :
    SameRuns (doLocalDer lib fs filename keytype keyusage)
      (doLocalDer lib' fs' filename keytype keyusage) := fun b b' hb => by
  unfold doLocalDer
  split_ifs
  · have h := hfs.2 filename
    rcases h1 : fs.rsaLoad filename with e | o <;> rcases h2 : fs'.rsaLoad filename with e' | o' <;>
      simp only [h1, h2, Except.map, Except.error.injEq, Except.ok.injEq, reduceCtorEq] at h
    · subst h
      show eraseResult (.error e b) = eraseResult (.error e b')
      simp [hb]
    · show eraseResult (derKeys lib (.rsa o) keytype _ b) = eraseResult (derKeys lib' (.rsa o') keytype _ b')
      exact derKeys_same hlib.2 (show (Val.rsa o).erase = (Val.rsa o').erase from congrArg Val.rsa h)
        keytype _ b b' hb
  · exact derKeys_same hlib.2 rfl keytype _ b b' hb

lemma reload_same (hlib : lib.SameUpToObjects lib') (w w' : World) (hfs : w.fs.SameUpToObjects w'.fs)
    (b : KeyBundle) (src : String) (hr : b.remote = false) :
    SameRuns (reload lib w b src) (reload lib' w' b src) := by
  unfold reload
  simp only [hr, if_true]
  split_ifs
  · exact doLocalJwk_same hlib hfs src
  · exact doLocalDer_same hlib hfs src b.keytype b.keyusage
  · exact fun _ _ hb => by simp [hb]

lemma update_same (hlib : lib.SameUpToObjects lib') (w w' : World) (hfs : w.fs.SameUpToObjects w'.fs)
    (b : KeyBundle) (hr : b.remote = false) :
    eraseResult (update lib w b) = eraseResult (update lib' w' b) := by
  rw [update_eq, update_eq]
  split
  · split_ifs
    · exact reload_same hlib w w' hfs b _ hr _ _ rfl
    · rfl
  · rfl

end Objects

/-- A second `update()` runs from the bundle the first emptied. -/
lemma update_after_update (lib' : Lib) (w w' : World) (b : KeyBundle) (hr : b.remote = false) :
    update lib' w' (stateOf (update lib w b)) = update lib' w' b := by
  rw [update_eq lib w b]
  split
  · rename_i src hs
    split_ifs with hne
    · obtain ⟨ks, hks⟩ := reload_onlyKeys lib w b src hr { b with _keys := [] }
      rw [hks, update_eq, update_eq]
      simp only [hs, if_pos hne]
      rfl
    · rfl
  · rfl

/-- A second local `update()` ends as the first did, up to object identity. -/
theorem update_idempotent (lib' : Lib) (w w' : World) (b : KeyBundle) (hr : b.remote = false)
    (hlib : lib.SameUpToObjects lib') (hfs : w.fs.SameUpToObjects w'.fs) :
    eraseResult (update lib' w' (stateOf (update lib w b))) = eraseResult (update lib w b) := by
  rw [update_after_update lib lib' w w' b hr, update_same hlib w w' hfs b hr]

def reloadWorld : World := { Lifecycle.derWorld with fs := ⟨derFs.jwkFile, fun _ => .ok ⟨8, 5, 3⟩⟩ }

theorem update_idempotent_at_der :
    derBundle.remote = false ∧ unaryLib.SameUpToObjects unaryLib ∧
      Lifecycle.derWorld.fs.SameUpToObjects reloadWorld.fs ∧
      eraseResult (update unaryLib reloadWorld (stateOf (update unaryLib Lifecycle.derWorld derBundle))) =
        eraseResult (update unaryLib Lifecycle.derWorld derBundle) :=
  ⟨rfl, ⟨fun _ _ => rfl, rfl⟩, ⟨rfl, fun _ => rfl⟩,
    update_idempotent unaryLib unaryLib Lifecycle.derWorld reloadWorld derBundle rfl
      ⟨fun _ _ => rfl, rfl⟩ ⟨rfl, fun _ => rfl⟩⟩

lemma emptied_of_onlyKeys {α : Type} {m : EStateM Exc KeyBundle α} (hm : OnlyKeys m)
    {b kb : KeyBundle} {a : α} (hb : b._keys = []) (h : m b = .ok a kb) :
    { kb with _keys := [] } = b := by
  obtain ⟨ks, hks⟩ := hm b
  rw [h] at hks
  change kb = _ at hks
  subst hks
  cases b
  simp only at hb
  rw [hb]

lemma loadLocal_reload (w : World) (b : KeyBundle) (src : String) (hr : b.remote = false)
    (hs : b.source = some src) : loadLocal lib w.fs b = build (reload lib w b src) b := by
  unfold loadLocal reload
  rw [hs, if_pos hr]
  dsimp only
  split_ifs <;> rfl

lemma update_of_emptied (w : World) (kb b0 : KeyBundle) (hkb : { kb with _keys := [] } = b0)
    (hrun : ∀ src, b0.source = some src → src ≠ "" → reload lib w b0 src b0 = .ok () kb) :
    update lib w kb = .ok () kb := by
  have hsrc : kb.source = b0.source := by rw [← hkb]
  have hre : reload lib w kb = reload lib w b0 := by rw [← hkb]; rfl
  rw [update_eq, hre, hkb]
  split
  · rename_i src hs
    split_ifs with hne
    · exact hrun src (hsrc ▸ hs) hne
    · rfl
  · rfl

/-- Loaded by the same calls, `update()` after `KeyBundle(...)` leaves the bundle. -/
lemma update_after_init (w : World) (a : BundleArgs) (kb : KeyBundle)
    (h : init lib w.fs a = .ok kb) (hr : kb.remote = false) : update lib w kb = .ok () kb := by
  unfold init at h
  split_ifs at h with hk hf hh hs
  · have hkb := emptied_of_onlyKeys (doKeys_onlyKeys lib a.keys) rfl (build_run h)
    exact update_of_emptied lib w kb _ hkb fun _ hs => by simp [fresh] at hs
  · rw [loadLocal_reload lib w _ _ rfl rfl] at h
    have hrun := build_run h
    refine update_of_emptied lib w kb _ (emptied_of_onlyKeys (reload_onlyKeys lib w _ _ rfl) rfl hrun)
      fun src hs _ => ?_
    cases hs
    exact hrun
  · cases h
    cases hr
  · cases h
    exact update_of_emptied lib w _ _ rfl fun _ hs => by simp [fresh] at hs

/-- `update()` after `KeyBundle(...)` leaves a local bundle as it was, up to identity. -/
theorem init_then_update (lib' : Lib) (fs : Fs) (w : World) (a : BundleArgs) (kb : KeyBundle)
    (h : init lib fs a = .ok kb) (hr : kb.remote = false) (hlib : lib.SameUpToObjects lib')
    (hfs : fs.SameUpToObjects w.fs) : ∃ kb', update lib' w kb = .ok () kb' ∧ kb'.erase = kb.erase := by
  have hsame := update_same hlib { w with fs := fs } w hfs kb hr
  rw [update_after_init lib { w with fs := fs } a kb h hr] at hsame
  cases hu : update lib' w kb with
  | ok u kb' =>
    rw [hu] at hsame
    exact ⟨kb', rfl, (EStateM.Result.ok.inj hsame).2.symm⟩
  | error e kb' => rw [hu] at hsame; cases hsame

theorem init_then_update_at_der :
    init unaryLib derFs { source := "file://" ++ "keys/rsa.der", fileformat := "der" } =
        .ok derBundle ∧ derBundle.remote = false ∧ unaryLib.SameUpToObjects unaryLib ∧
      derFs.SameUpToObjects reloadWorld.fs ∧
      ∃ kb', update unaryLib reloadWorld derBundle = .ok () kb' ∧ kb'.erase = derBundle.erase :=
  ⟨rfl, rfl, ⟨fun _ _ => rfl, rfl⟩, ⟨rfl, fun _ => rfl⟩,
    init_then_update unaryLib unaryLib derFs reloadWorld
      { source := "file://" ++ "keys/rsa.der", fileformat := "der" } derBundle rfl rfl
      ⟨fun _ _ => rfl, rfl⟩ ⟨rfl, fun _ => rfl⟩⟩

end OicKeyio.Reload
