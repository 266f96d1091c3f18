import OicKeyio.Resolution

set_option autoImplicit false

/-!
# Merging key lists

`x_keys` merges one's own keys into the counterpart's, kind by kind, and
`KeyJar.update` merges another jar into this one, issuer by issuer. Both loops
extend the list under the entry's key or insert it, so that every key ends up
holding its old list followed by the lists the loop met under it. On local
bundles `get` reads an issuer's list through a filter and a map, and these
distribute over that concatenation.
-/
namespace OicKeyio.Merge
open KeyJar Resolution

variable (lib : Lib)

/-- The list `d` holds under `k`, `[]` for a key it does not hold. -/
def listAt {β : Type} (d : Dict (List β)) (k : String) : List β := (d.get? k).getD []

def NoEmpty {β : Type} (d : Dict (List β)) : Prop := ∀ k v, d.get? k = some v → v ≠ []

section Extend

variable {γ β : Type}

lemma foldl_listAt (view : γ → Dict (List β)) (step : γ → String × List β → γ)
    (hstep : ∀ d p k, listAt (view (step d p)) k = listAt (view d) k ++ if p.1 = k then p.2 else [])
    (es : List (String × List β)) (d : γ) (k : String) :
    listAt (view (es.foldl step d)) k =
      listAt (view d) k ++ (es.filter fun p => p.1 = k).flatMap Prod.snd := by
  induction es generalizing d with
  | nil => simp
  | cons p es ih =>
    rw [List.foldl_cons, ih, hstep, List.filter_cons]
    by_cases h : p.1 = k <;> simp [h]

lemma flatMap_filter_lookup (k : String) (l : List (String × List β))
    (hl : (l.map Prod.fst).Nodup) :
    (l.filter fun p => p.1 = k).flatMap Prod.snd = (Dict.lookup k l).getD [] := by
  induction l with
  | nil => rfl
  | cons p ps ih =>
    rw [List.map_cons, List.nodup_cons] at hl
    by_cases h : p.1 = k
    · have hnone : ps.filter (fun p => p.1 = k) = [] :=
        List.filter_eq_nil_iff.mpr fun q hq hqk => hl.1 (by
          rw [h, ← of_decide_eq_true hqk]; exact List.mem_map_of_mem _ hq)
      simp [List.filter_cons, h, hnone, Dict.lookup]
    · simp [List.filter_cons, h, Dict.lookup, ih hl.2]

lemma flatMap_filter_entries (d : Dict (List β)) (k : String) :
    (d.entries.filter fun p => p.1 = k).flatMap Prod.snd = listAt d k :=
  flatMap_filter_lookup k d.entries d.nodup

lemma NoEmpty.mem_keys {d : Dict (List β)} (h : NoEmpty d) (k : String) :
    k ∈ d.keys ↔ listAt d k ≠ [] := by
  have hnone := Dict.get?_eq_none d k
  cases hk : d.get? k with
  | none => simp_all [listAt]
  | some v => simp_all [listAt, h k v hk]

end Extend

lemma xKeys_step_listAt (d : Dict (List Val)) (p : String × List Val) (k : String) :
    listAt (if p.2 = [] then d else d.set p.1 ((d.get? p.1).getD [] ++ p.2)) k =
      listAt d k ++ if p.1 = k then p.2 else [] := by
  by_cases hp : p.2 = [] <;> by_cases hk : p.1 = k <;> simp [listAt, hp, hk]

lemma xKeys_step_noEmpty (d : Dict (List Val)) (p : String × List Val) (hd : NoEmpty d) :
    NoEmpty (if p.2 = [] then d else d.set p.1 ((d.get? p.1).getD [] ++ p.2)) := by
  by_cases hp : p.2 = []
  · simpa [hp] using hd
  · intro k v hv
    rw [if_neg hp, Dict.get?_set] at hv
    split_ifs at hv
    · cases hv; simp [hp]
    · exact hd k v hv

lemma foldl_xKeys_listAt (es : List (String × List Val)) (d : Dict (List Val)) (k : String) :
    listAt (es.foldl (fun keys p =>
      if p.2 = [] then keys else keys.set p.1 ((keys.get? p.1).getD [] ++ p.2)) d) k =
      listAt d k ++ (es.filter fun p => p.1 = k).flatMap Prod.snd :=
  foldl_listAt id _ xKeys_step_listAt es d k

lemma foldl_xKeys_noEmpty (es : List (String × List Val)) (d : Dict (List Val)) (hd : NoEmpty d) :
    NoEmpty (es.foldl (fun keys p =>
      if p.2 = [] then keys else keys.set p.1 ((keys.get? p.1).getD [] ++ p.2)) d) := by
  induction es generalizing d with
  | nil => exact hd
  | cons p es ih => exact ih _ (xKeys_step_noEmpty d p hd)

lemma get_untyped_ok (w : World) (use issuer : String) (kj : KeyJar) (hloc : Local kj)
    (hself : "" ∈ kj.issuerKeys.keys) :
    ∃ res, KeyJar.get lib w use "" issuer kj = .ok res kj ∧ NoEmpty res := by
  rw [get_resolved lib w use "" issuer kj hloc, if_neg fun h => h.2 hself]
  refine ⟨_, rfl, ?_⟩
  cases resolveIssuer kj issuer with
  | none => intro k v hv; simp at hv
  | some j =>
    intro k v hv
    dsimp only [Option.elim] at hv
    rw [resolveIn_untyped] at hv
    split_ifs at hv with hm
    · cases hv; exact hm

/-- The two reads of `x_keys` concatenated kind by kind, the jar left as it was. -/
def ConcatReads (func : String → String → EStateM Exc KeyJar (Dict (List Val)))
    (merged : EStateM Exc KeyJar (Dict (List Val))) (part : String) (kj : KeyJar) : Prop :=
  ∃ gp gs res, func "" part kj = .ok gp kj ∧ func "" "" kj = .ok gs kj ∧ merged kj = .ok res kj ∧
    ∀ kind, listAt res kind = listAt gp kind ++ listAt gs kind ∧
      (kind ∈ res.keys ↔ listAt gp kind ≠ [] ∨ listAt gs kind ≠ [])

lemma xKeys_concat (w : World) (use part : String) (kj : KeyJar) (hloc : Local kj)
    (hself : "" ∈ kj.issuerKeys.keys) :
    ConcatReads (KeyJar.get lib w use) (xKeys (KeyJar.get lib w use) part) part kj := by
  obtain ⟨gp, hp, hgp⟩ := get_untyped_ok lib w use part kj hloc hself
  obtain ⟨gs, hs, hgs⟩ := get_untyped_ok lib w use "" kj hloc hself
  refine ⟨gp, gs, _, hp, hs, by simp only [xKeys, run_bind, hp, hs, run_pure]; rfl, fun kind => ?_⟩
  have hcat := foldl_xKeys_listAt gs.entries gp kind
  rw [flatMap_filter_entries] at hcat
  refine ⟨hcat, ?_⟩
  rw [(foldl_xKeys_noEmpty gs.entries gp hgp).mem_keys, hcat, ne_eq, List.append_eq_nil, not_and_or]

/-- `verify_keys` and `decrypt_keys` concatenate the reads for `P` and for `""`. -/
theorem x_keys_concat (w : World) (part : String) (kj : KeyJar) (hloc : Local kj)
    (hself : "" ∈ kj.issuerKeys.keys) :
    ConcatReads (getVerifyKey lib w) (verifyKeys lib w part) part kj ∧
      ConcatReads (getDecryptKey lib w) (decryptKeys lib w part) part kj :=
  ⟨xKeys_concat lib w "ver" part kj hloc hself, xKeys_concat lib w "dec" part kj hloc hself⟩

theorem x_keys_concat_at_self :
    Local selfJar ∧ "" ∈ selfJar.issuerKeys.keys ∧
      ConcatReads (getVerifyKey Refresh.sampleLib (Refresh.sampleWorld fun _ => .error .transport))
        (verifyKeys Refresh.sampleLib (Refresh.sampleWorld fun _ => .error .transport) "") ""
        selfJar :=
  ⟨by decide, by decide,
    (x_keys_concat Refresh.sampleLib _ "" selfJar (by decide) (by decide)).1⟩

lemma xKeys_unregistered (w : World) (use part : String) (kj : KeyJar) (hloc : Local kj)
    (hself : "" ∉ kj.issuerKeys.keys) :
    xKeys (KeyJar.get lib w use) part kj = .error (.keyError "") kj := by
  have hget : ∀ issuer, KeyJar.get lib w use "" issuer kj =
      if issuer = "" then .error (.keyError "") kj
      else .ok ((resolveIssuer kj issuer).elim Dict.empty fun j =>
        resolveIn use "" ((kj.issuerKeys.get? j).getD [])) kj := fun issuer => by
    rw [get_resolved lib w use "" issuer kj hloc]
    by_cases h : issuer = "" <;> simp [h, hself]
  by_cases hp : part = "" <;> simp only [xKeys, run_bind, hget, hp, ↓reduceIte]

/-- Without the self issuer, `verify_keys` and `decrypt_keys` raise `KeyError('')`. -/
theorem x_keys_unregistered_self (w : World) (part : String) (kj : KeyJar) (hloc : Local kj)
    (hself : "" ∉ kj.issuerKeys.keys) :
    verifyKeys lib w part kj = .error (.keyError "") kj ∧
      decryptKeys lib w part kj = .error (.keyError "") kj :=
  ⟨xKeys_unregistered lib w "ver" part kj hloc hself,
    xKeys_unregistered lib w "dec" part kj hloc hself⟩

theorem x_keys_unregistered_self_at_init :
    Local KeyJar.init ∧ "" ∉ KeyJar.init.issuerKeys.keys ∧
      verifyKeys Refresh.sampleLib (Refresh.sampleWorld fun _ => .error .transport) "op"
        KeyJar.init = .error (.keyError "") KeyJar.init :=
  ⟨by decide, by decide,
    (x_keys_unregistered_self Refresh.sampleLib _ "op" KeyJar.init (by decide) (by decide)).1⟩

lemma update_step_listAt (kj : KeyJar) (p : String × List KeyBundle) (k : String) :
    listAt (KeyJar.issuerKeys
        ⟨kj.issuerKeys.set p.1 ((kj.issuerKeys.get? p.1).getD [] ++ p.2)⟩) k =
      listAt kj.issuerKeys k ++ if p.1 = k then p.2 else [] := by
  by_cases hk : p.1 = k <;> simp [listAt, hk]

/-- After `A.update(B)` every issuer holds its bundles in `A` followed by those in `B`. -/
lemma listAt_update (A B : KeyJar) (k : String) :
    listAt (A.update B).issuerKeys k = listAt A.issuerKeys k ++ listAt B.issuerKeys k := by
  rw [update, foldl_listAt KeyJar.issuerKeys _ update_step_listAt, flatMap_filter_entries]

lemma mem_keys_update (A B : KeyJar) (k : String) :
    k ∈ (A.update B).issuerKeys.keys ↔ k ∈ A.issuerKeys.keys ∨ k ∈ B.issuerKeys.keys := by
  unfold update Dict.keys
  induction B.issuerKeys.entries generalizing A with
  | nil => simp
  | cons p es ih =>
    rw [List.foldl_cons, ih]
    change k ∈ (Dict.setEntries _ _ _).map Prod.fst ∨ _ ↔ _
    rw [Dict.mem_keys_setEntries, List.map_cons, List.mem_cons]
    tauto

end OicKeyio.Merge
