import OicKeyio.Lifecycle
import OicKeyio.Merge
import OicKeyio.Revocation
import OicKeyio.Registration
import OicKeyio.Lookup

set_option autoImplicit false

/-!
# Runs of jar operations

A jar changes only by `issuer_keys[issuer] = bundles`: `add`, `add_kb`,
`add_hmac` and `load_keys` extend or reset an issuer's list, `__setitem__`
replaces it, `get` and `x_keys` put back the bundles their reads refreshed,
`remove_key` puts back the pruned list, and `update` extends each issuer of the
other jar. No operation deletes an issuer.

`Writes P kj kj'` says that `kj'` is `kj` after such writes, each of a list of
bundles that have `P`. Every operation writes so from a jar whose bundles have
`P`, whether it returns or raises, when a refresh and `remove` keep `P` and
every bundle `KeyBundle(...)` builds from the arguments the jar passes has it.
Over a run, the registered issuers only grow, and with `P` publishability, a
peer rebuilds every key the jar holds.
-/
namespace OicKeyio.JarRuns
open KeyJar KeyBundle Merge Lifecycle Cache Publish

variable (lib : Lib)

def AllBundles (P : KeyBundle → Prop) (kj : KeyJar) : Prop :=
  ∀ i, ∀ b ∈ listAt kj.issuerKeys i, P b

/-- `kj'` is `kj` after writes of lists whose bundles have `P`. -/
inductive Writes (P : KeyBundle → Prop) : KeyJar → KeyJar → Prop
  | refl (kj : KeyJar) : Writes P kj kj
  | set {kj kj' : KeyJar} (h : Writes P kj kj') (i : String) (bs : List KeyBundle)
      (hbs : ∀ b ∈ bs, P b) : Writes P kj ⟨kj'.issuerKeys.set i bs⟩

/-- A jar method writes only lists of bundles with `P`, whether it returns or raises. -/
def WritesOnly {α : Type} (P : KeyBundle → Prop) (m : EStateM Exc KeyJar α) : Prop :=
  ∀ kj, AllBundles P kj → Writes P kj (stateOf (m kj))

section Writes

variable {P : KeyBundle → Prop}

lemma AllBundles.empty : AllBundles P KeyJar.init := fun _ b hb => by cases hb

lemma AllBundles.set {kj : KeyJar} (h : AllBundles P kj) (i : String) {bs : List KeyBundle}
    (hbs : ∀ b ∈ bs, P b) : AllBundles P ⟨kj.issuerKeys.set i bs⟩ := by
  intro j b hb
  simp only [listAt, Dict.get?_set] at hb
  split_ifs at hb
  · exact hbs b hb
  · exact h j b hb

lemma Writes.allBundles {kj kj' : KeyJar} (h : Writes P kj kj') (hkj : AllBundles P kj) :
    AllBundles P kj' := by
  induction h with
  | refl => exact hkj
  | set _ i _ hbs ih => exact ih.set i hbs

lemma Writes.trans {kj kj' kj'' : KeyJar} (h : Writes P kj kj') (h' : Writes P kj' kj'') :
    Writes P kj kj'' := by
  induction h' with
  | refl => exact h
  | set _ i bs hbs ih => exact ih.set i bs hbs

lemma Writes.mem_keys {kj kj' : KeyJar} (h : Writes P kj kj') {i : String}
    (hi : i ∈ kj.issuerKeys.keys) : i ∈ kj'.issuerKeys.keys := by
  induction h with
  | refl => exact hi
  | set _ j _ _ ih =>
    rw [Dict.keys_set]
    split_ifs
    · exact ih
    · exact List.mem_append_left _ ih

lemma Writes.extend {kj : KeyJar} (hkj : AllBundles P kj) (i : String) {bs : List KeyBundle}
    (hbs : ∀ b ∈ bs, P b) : Writes P kj ⟨kj.issuerKeys.set i (listAt kj.issuerKeys i ++ bs)⟩ :=
  (Writes.refl kj).set i _ fun b hb => (List.mem_append.mp hb).elim (hkj i b) (hbs b)

lemma WritesOnly.pure {α : Type} (a : α) : WritesOnly P (Pure.pure a : EStateM Exc KeyJar α) :=
  fun kj _ => .refl kj

lemma WritesOnly.bind {α β : Type} {m : EStateM Exc KeyJar α} {f : α → EStateM Exc KeyJar β}
    (hm : WritesOnly P m) (hf : ∀ a, WritesOnly P (f a)) : WritesOnly P (m >>= f) := by
  intro kj hkj
  have h1 := hm kj hkj
  rw [run_bind]
  cases hr : m kj with
  | ok a kj' =>
    rw [hr] at h1
    exact h1.trans (hf a kj' (h1.allBundles hkj))
  | error e kj' =>
    rw [hr] at h1
    exact h1

lemma WritesOnly.exceptKeyError {m : EStateM Exc KeyJar Unit} (hm : WritesOnly P m) :
    WritesOnly P (exceptKeyError m) := by
  intro kj hkj
  have h1 := hm kj hkj
  unfold KeyJar.exceptKeyError
  cases hr : m kj with
  | ok a kj' => rw [hr] at h1; exact h1
  | error e kj' =>
    rw [hr] at h1
    dsimp only
    split_ifs <;> exact h1

end Writes

section Operations

variable {lib} {P : KeyBundle → Prop}
  (hrefresh : ∀ w b, P b → P (refreshed lib w b))
  (hremove : ∀ b typ val, P b → P (b.remove typ val))
  (hinit : ∀ fs a kb, KeyBundle.init lib fs a = .ok kb → loadsDerNonRsa a = false → P kb)

include hinit in
lemma bundleFor_ok {fs : Fs} {url : String} {kb : KeyBundle} (h : bundleFor lib fs url = .ok kb) :
    P kb := by
  unfold bundleFor at h
  split_ifs at h <;> exact hinit fs _ kb h (loadsDerNonRsa_jwk _ rfl)

include hinit in
lemma add_writes (fs : Fs) (issuer url : String) : WritesOnly P (add lib fs issuer url) := by
  intro kj hkj
  simp only [add, run_bind]
  cases h : bundleFor lib fs url with
  | error e => exact .refl kj
  | ok kb =>
    refine Writes.extend hkj issuer fun b hb => ?_
    rw [List.mem_singleton.mp hb]
    exact bundleFor_ok hinit h

include hinit in
lemma appendHmac_writes (fs : Fs) (key : Val) :
    ∀ usage : List String, WritesOnly P (appendHmac lib fs key usage)
  | [] => WritesOnly.pure ()
  | use :: rest => fun kj hkj => by
    simp only [appendHmac]
    cases hl : kj.issuerKeys.get? "" with
    | none => exact .refl kj
    | some l =>
      have hb : P (Registration.hmacKeyBundle key use) :=
        hinit fs _ _ (Registration.hmacBundle_eq lib fs key use)
          (loadsDerNonRsa_keys _ (List.cons_ne_nil _ _))
      have hw : Writes P kj ⟨kj.issuerKeys.set "" (l ++ [Registration.hmacKeyBundle key use])⟩ := by
        have : Writes P kj ⟨kj.issuerKeys.set "" (listAt kj.issuerKeys "" ++
            [Registration.hmacKeyBundle key use])⟩ := Writes.extend hkj "" (by simpa using hb)
        rwa [listAt, hl, Option.getD_some] at this
      simp only [Registration.hmacBundle_eq]
      exact hw.trans (appendHmac_writes fs key rest _ (hw.allBundles hkj))

include hinit in
lemma addHmac_writes (fs : Fs) (issuer : String) (key : Val) (usage : List String) :
    WritesOnly P (addHmac lib fs issuer key usage) := by
  intro kj hkj
  rw [Registration.addHmac_eq]
  have hw : Writes P kj ⟨kj.issuerKeys.set issuer (listAt kj.issuerKeys issuer ++ [])⟩ :=
    Writes.extend hkj issuer (by simp)
  rw [List.append_nil] at hw
  exact hw.trans (appendHmac_writes hinit fs key usage _ (hw.allBundles hkj))

lemma mem_stateOf_readAll {α : Type} {read : EStateM Exc KeyBundle α} {b x : KeyBundle}
    {bs : List KeyBundle} (hx : x ∈ stateOf (readAll read (b :: bs))) :
    x = stateOf (read b) ∨ x ∈ bs ∨ x ∈ stateOf (readAll read bs) := by
  unfold readAll at hx
  cases hr : read b <;> cases hrs : readAll read bs <;>
    simp only [hr, hrs, stateOf, List.mem_cons] at hx ⊢ <;> tauto

lemma readAll_keeps {α : Type} (w : World) (read : EStateM Exc KeyBundle α)
    (hread : ∀ b, stateOf (read b) = refreshed lib w b) (hP : ∀ b, P b → P (refreshed lib w b)) :
    ∀ bs : List KeyBundle, (∀ b ∈ bs, P b) → ∀ b ∈ stateOf (readAll read bs), P b
  | [], _ => by simp [readAll, stateOf]
  | b :: bs, h => fun x hx => by
    rcases mem_stateOf_readAll hx with rfl | hx | hx
    · exact hread b ▸ hP b (h b (List.mem_cons_self _ _))
    · exact h x (List.mem_cons_of_mem _ hx)
    · exact readAll_keeps w read hread hP bs (fun b' hb' => h b' (List.mem_cons_of_mem _ hb')) x hx

include hrefresh in
lemma get_writes (w : World) (use keyType issuer : String) :
    WritesOnly P (KeyJar.get lib w use keyType issuer) := by
  intro kj hkj
  unfold KeyJar.get
  rcases kj.lookupIssuer issuer with e | _ | j
  · exact .refl kj
  · exact .refl kj
  · dsimp only
    split
    · exact .refl kj
    · have hread : ∀ b, stateOf ((if keyType ≠ "" then KeyBundle.get lib w keyType
          else KeyBundle.keys lib w) b) = refreshed lib w b := by
        intro b
        split_ifs
        exacts [stateOf_get lib w keyType b, stateOf_keys lib w b]
      generalize (if keyType ≠ "" then KeyBundle.get lib w keyType else KeyBundle.keys lib w) = read
        at hread ⊢
      have hbs : ∀ b ∈ stateOf (readAll read ((kj.issuerKeys.get? j).getD [])), P b :=
        readAll_keeps w read hread (hrefresh w) _ (hkj j)
      revert hbs
      cases readAll read ((kj.issuerKeys.get? j).getD []) <;>
        exact fun hbs => (Writes.refl kj).set j _ hbs

include hrefresh in
lemma xKeys_writes (w : World) (use part : String) :
    WritesOnly P (xKeys (fun keyType owner => KeyJar.get lib w use keyType owner) part) :=
  (get_writes hrefresh w use "" part).bind fun _ =>
    (get_writes hrefresh w use "" "").bind fun _ => WritesOnly.pure _

include hremove in
lemma pruneSkip_keeps (typ : String) (val : Val) :
    ∀ kcs : List KeyBundle, (∀ b ∈ kcs, P b) → ∀ b ∈ Revocation.pruneSkip typ val kcs, P b
  | [], _ => by simp [Revocation.pruneSkip]
  | [kc], h => by
    have hkc := hremove kc typ val (h kc (List.mem_singleton_self _))
    unfold Revocation.pruneSkip
    split_ifs <;> simp [hkc]
  | kc :: next :: rest, h => by
    have hkc := hremove kc typ val (h kc (List.mem_cons_self _ _))
    unfold Revocation.pruneSkip
    split_ifs
    · rintro b (_ | ⟨_, hb⟩)
      · exact h next (by simp)
      · exact pruneSkip_keeps typ val rest (fun b hb => h b (by simp [hb])) b hb
    · rintro b (_ | ⟨_, hb⟩)
      · exact hkc
      · exact pruneSkip_keeps typ val (next :: rest) (fun b hb => h b (List.mem_cons_of_mem _ hb)) b hb

include hremove in
lemma removeKey_writes (issuer typ : String) (val : Val) (kj : KeyJar) (hkj : AllBundles P kj) :
    Writes P kj (removeKey issuer typ val kj) := by
  rw [Revocation.removeKey_eq]
  cases hk : kj.issuerKeys.get? issuer with
  | none => exact .refl kj
  | some kcs =>
    refine (Writes.refl kj).set issuer _ (pruneSkip_keeps hremove typ val kcs fun b hb => ?_)
    exact hkj issuer b (by rw [listAt, hk]; exact hb)

lemma update_writes (kj other : KeyJar) (hkj : AllBundles P kj) (hother : AllBundles P other) :
    Writes P kj (kj.update other) := by
  unfold KeyJar.update
  have hes : ∀ p ∈ other.issuerKeys.entries, ∀ b ∈ p.2, P b := fun p hp b hb =>
    hother p.1 b (by rw [listAt, Dict.get?_of_mem _ p hp]; exact hb)
  generalize other.issuerKeys.entries = es at hes ⊢
  induction es generalizing kj with
  | nil => exact .refl kj
  | cons p es ih =>
    have hw := Writes.extend hkj p.1 (hes p (List.mem_cons_self _ _))
    exact hw.trans (ih _ (hw.allBundles hkj) fun q hq => hes q (List.mem_cons_of_mem _ hq))

lemma resetIssuer_writes (issuer : String) (replace : Bool) (kj : KeyJar) :
    Writes P kj (resetIssuer issuer replace kj) := by
  unfold resetIssuer
  split_ifs
  · exact (Writes.refl kj).set issuer [] (by simp)
  · exact .refl kj

include hinit in
lemma loadKeys_writes (fs : Fs) (pcr : Entry) (issuer : String) (replace : Bool) :
    WritesOnly P (loadKeys lib fs pcr issuer replace) := by
  intro kj hkj
  have hr : Writes P kj (resetIssuer issuer replace kj) := resetIssuer_writes issuer replace kj
  rw [Registration.loadKeys_eq]
  split
  · exact hr
  · rename_i url _
    cases hb : bundleFor lib fs url with
    | ok kb =>
      exact hr.trans (Writes.extend (hr.allBundles hkj) issuer fun b hb' => by
        rw [List.mem_singleton.mp hb']
        exact bundleFor_ok hinit hb)
    | error e =>
      dsimp only
      split_ifs <;> exact hr
  · exact hr

/-- An operation called on a jar, with what it reads from outside. -/
inductive Op where
  | add (fs : Fs) (issuer url : String)
  | addHmac (fs : Fs) (issuer : String) (key : Val) (usage : List String)
  | addKb (issuer : String) (kb : KeyBundle)
  | setItem (issuer : String) (val : List KeyBundle)
  | get (w : World) (use keyType issuer : String)
  | verifyKeys (w : World) (part : String)
  | decryptKeys (w : World) (part : String)
  | removeKey (issuer keyType : String) (key : Val)
  | update (other : KeyJar)
  | loadKeys (fs : Fs) (pcr : Entry) (issuer : String) (replace : Bool)

variable (lib) in
def Op.apply : Op → KeyJar → KeyJar
  | .add fs issuer url, kj => stateOf (KeyJar.add lib fs issuer url kj)
  | .addHmac fs issuer key usage, kj => stateOf (KeyJar.addHmac lib fs issuer key usage kj)
  | .addKb issuer kb, kj => KeyJar.addKb issuer kb kj
  | .setItem issuer val, kj => kj.setItem issuer val
  | .get w use keyType issuer, kj => stateOf (KeyJar.get lib w use keyType issuer kj)
  | .verifyKeys w part, kj => stateOf (KeyJar.verifyKeys lib w part kj)
  | .decryptKeys w part, kj => stateOf (KeyJar.decryptKeys lib w part kj)
  | .removeKey issuer keyType key, kj => KeyJar.removeKey issuer keyType key kj
  | .update other, kj => kj.update other
  | .loadKeys fs pcr issuer replace, kj => stateOf (KeyJar.loadKeys lib fs pcr issuer replace kj)

variable (lib) in
def runOps (ops : List Op) (kj : KeyJar) : KeyJar := ops.foldl (fun kj op => op.apply lib kj) kj

/-- The operations whose bundles from the caller have `P`. -/
def Op.Admitted (P : KeyBundle → Prop) : Op → Prop
  | .addKb _ kb => P kb
  | .setItem _ val => ∀ b ∈ val, P b
  | .update other => AllBundles P other
  | _ => True

include hrefresh hremove hinit in
/-- The step lemma: an admitted operation writes only lists of bundles with `P`. -/
lemma Op.writes (op : Op) (hop : op.Admitted P) (kj : KeyJar) (hkj : AllBundles P kj) :
    Writes P kj (op.apply lib kj) := by
  cases op with
  | add fs issuer url => exact add_writes hinit fs issuer url kj hkj
  | addHmac fs issuer key usage => exact addHmac_writes hinit fs issuer key usage kj hkj
  | addKb issuer kb => exact Writes.extend hkj issuer fun b hb => List.mem_singleton.mp hb ▸ hop
  | setItem issuer val => exact (Writes.refl kj).set issuer val hop
  | get w use keyType issuer => exact get_writes hrefresh w use keyType issuer kj hkj
  | verifyKeys w part => exact xKeys_writes hrefresh w "ver" part kj hkj
  | decryptKeys w part => exact xKeys_writes hrefresh w "dec" part kj hkj
  | removeKey issuer keyType key => exact removeKey_writes hremove issuer keyType key kj hkj
  | update other => exact update_writes kj other hkj hop
  | loadKeys fs pcr issuer replace => exact loadKeys_writes hinit fs pcr issuer replace kj hkj

include hrefresh hremove hinit in
/-- The run lemma. -/
lemma runOps_writes (ops : List Op) (hops : ∀ op ∈ ops, op.Admitted P) (kj : KeyJar)
    (hkj : AllBundles P kj) : Writes P kj (runOps lib ops kj) := by
  induction ops generalizing kj with
  | nil => exact .refl kj
  | cons op ops ih =>
    have h1 := op.writes hrefresh hremove hinit (hops op (List.mem_cons_self _ _)) kj hkj
    exact h1.trans (ih (fun op' h => hops op' (List.mem_cons_of_mem _ h)) _ (h1.allBundles hkj))

end Operations

lemma Op.admitted_true (op : Op) : op.Admitted fun _ => True := by
  cases op <;> first | trivial | exact fun _ _ => trivial | exact fun _ _ _ => trivial

/-- No run of jar operations unregisters an issuer, whatever each returns or raises. -/
theorem run_keeps_issuers (ops : List Op) (kj : KeyJar) (i : String)
    (hi : i ∈ kj.issuerKeys.keys) : i ∈ (runOps lib ops kj).issuerKeys.keys :=
  (@runOps_writes lib (fun _ => True) (fun _ _ _ => trivial) (fun _ _ _ _ => trivial)
    (fun _ _ _ _ _ => trivial) ops (fun op _ => op.admitted_true) kj
    (fun _ _ _ => trivial)).mem_keys hi

def opJar : KeyJar := ⟨Dict.ofList [("https://op.example", [])]⟩

def opRun : List Op :=
  [.loadKeys derFs Lookup.opMetadata "https://op.example" true,
   .removeKey "https://op.example" "rsa" .none,
   .get derWorld "sig" "" "https://op.example"]

theorem run_keeps_issuers_at_op :
    "https://op.example" ∈ opJar.issuerKeys.keys ∧
      "https://op.example" ∈ (runOps unaryLib opRun opJar).issuerKeys.keys :=
  ⟨by decide, run_keeps_issuers unaryLib opRun opJar "https://op.example" (by decide)⟩

/-- A bundle that publishes its keys whole and reloads no DER file of another key type. -/
def Sound (b : KeyBundle) : Prop := Publishable lib b ∧ DerRsa b

lemma sound_refreshed (w : World) (b : KeyBundle) (h : Sound lib b) : Sound lib (refreshed lib w b) :=
  ⟨refreshed_publishable lib w b h.1, h.2.of_config (config_refreshed lib w b)⟩

lemma sound_remove (b : KeyBundle) (typ : String) (val : Val) (h : Sound lib b) :
    Sound lib (b.remove typ val) :=
  ⟨remove_publishable lib b typ val h.1, h.2.of_config (config_remove b typ val)⟩

section Inverts

variable {lib} (hlib : Inverts lib)
include hlib

/-- A peer rebuilds every key of a jar after any run of operations on sound bundles. -/
theorem jar_run_publishes (ops : List Op) (hops : ∀ op ∈ ops, op.Admitted (Sound lib))
    (kj : KeyJar) (hkj : AllBundles (Sound lib) kj) :
    ∀ i, ∀ b ∈ listAt (runOps lib ops kj).issuerKeys i, ∀ k ∈ b._keys,
      ∃ k', decodeKey lib k.toDict = .ok k' ∧ Rebuilds k k' := by
  have h := (runOps_writes (sound_refreshed lib) (sound_remove lib) (init_sound lib) ops hops kj
    hkj).allBundles hkj
  exact fun i b hb k hk => ((h i b hb).1 k hk).rebuilt hlib

end Inverts

def clientRun : List Op :=
  [.loadKeys derFs Lookup.opMetadata "https://op.example" false,
   .addHmac derFs "https://op.example" (.str "secret") ["sig", "ver"],
   .verifyKeys derWorld "https://op.example"]

theorem jar_run_publishes_at_client :
    Inverts unaryLib ∧ (∀ op ∈ clientRun, op.Admitted (Sound unaryLib)) ∧
      AllBundles (Sound unaryLib) KeyJar.init ∧
      ∀ i, ∀ b ∈ listAt (runOps unaryLib clientRun KeyJar.init).issuerKeys i, ∀ k ∈ b._keys,
        ∃ k', decodeKey unaryLib k.toDict = .ok k' ∧ Rebuilds k k' :=
  have hops : ∀ op ∈ clientRun, op.Admitted (Sound unaryLib) := by simp [clientRun, Op.Admitted]
  ⟨unaryLib_inverts, hops, AllBundles.empty,
    jar_run_publishes unaryLib_inverts clientRun hops KeyJar.init AllBundles.empty⟩

end OicKeyio.JarRuns
