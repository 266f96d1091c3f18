import OicKeyio.Python

set_option autoImplicit false

/-!
# De-duplicating RSA keys

`uniq_ext(lst, keys)` appends to `lst` the entries of `keys`, skipping an rsa
entry whose `(n, e)` is already there. It keeps the numbers seen so far as the
keys of a dict `rkeys`, filled first from `lst` and then as entries are
appended. The loop invariant, `Tracks`, is that these keys are the numbers of
the rsa entries of the list built so far; `appendFresh` states the result by
that list alone.
-/
namespace OicKeyio.Dedup

/-- `(item.n, item.e)`: only an RSA key object has these attributes. -/
def nePair : Val → Except Exc (Nat × Nat)
  | .rsa o => .ok (o.n, o.e)
  | _ => .error (.attributeError "n")

/-- The first loop of `uniq_ext`, `rkeys` kept as its key set, the only part read later. -/
def collectRsa (rkeys : List (Nat × Nat)) (entry : String × Val) :
    Except Exc (List (Nat × Nat)) :=
  if entry.1 = "rsa" then do
    let key ← nePair entry.2
    pure (rkeys.insert key)
  else pure rkeys

def extendStep (acc : List (String × Val) × List (Nat × Nat)) (entry : String × Val) :
    Except Exc (List (String × Val) × List (Nat × Nat)) :=
  if entry.1 ≠ "rsa" then pure (acc.1 ++ [entry], acc.2)
  else do
    let key ← nePair entry.2
    if key ∉ acc.2 then pure (acc.1 ++ [entry], acc.2.insert key) else pure acc

/-- `uniq_ext(lst, keys)` -/
def uniqExt (lst keys : List (String × Val)) : Except Exc (List (String × Val)) := do
  let rkeys ← lst.foldlM collectRsa []
  let acc ← keys.foldlM extendStep (lst, rkeys)
  return acc.1

/-- The `(n, e)` of an rsa entry whose item is an RSA key. -/
def rsaNumbers : String × Val → Option (Nat × Nat)
  | (typ, .rsa o) => if typ = "rsa" then some (o.n, o.e) else none
  | _ => none

def rsaPairs (l : List (String × Val)) : List (Nat × Nat) := l.filterMap rsaNumbers

def fresh (l : List (String × Val)) (entry : String × Val) : Bool :=
  match rsaNumbers entry with
  | none => true
  | some p => p ∉ rsaPairs l

/-- `lst` extended by each entry of `keys` that adds no rsa numbers already there. -/
def appendFresh (lst : List (String × Val)) : List (String × Val) → List (String × Val)
  | [] => lst
  | e :: rest => appendFresh (if fresh lst e then lst ++ [e] else lst) rest

def Numbered (l : List (String × Val)) : Prop := ∀ e ∈ l, e.1 = "rsa" → rsaNumbers e ≠ none

instance (l : List (String × Val)) : Decidable (Numbered l) :=
  inferInstanceAs (Decidable (∀ e ∈ l, _))

@[simp] lemma rsaPairs_append (l l' : List (String × Val)) :
    rsaPairs (l ++ l') = rsaPairs l ++ rsaPairs l' :=
  List.filterMap_append l l' rsaNumbers

@[simp] lemma rsaPairs_singleton (e : String × Val) : rsaPairs [e] = (rsaNumbers e).toList := by
  cases h : rsaNumbers e <;> simp [rsaPairs, h]

lemma rsaNumbers_of_ne (e : String × Val) (h : e.1 ≠ "rsa") : rsaNumbers e = none := by
  obtain ⟨typ, item⟩ := e
  cases item <;> simp_all [rsaNumbers]

lemma collectRsa_ok (rk : List (Nat × Nat)) (e : String × Val)
    (he : e.1 = "rsa" → rsaNumbers e ≠ none) :
    ∃ rk', collectRsa rk e = .ok rk' ∧ ∀ p, p ∈ rk' ↔ p ∈ rk ∨ rsaNumbers e = some p := by
  obtain ⟨typ, item⟩ := e
  by_cases ht : typ = "rsa"
  · subst ht
    cases item <;> simp_all [collectRsa, rsaNumbers, nePair, Except.toOption, bind, Except.bind,
      pure, Except.pure, or_comm, eq_comm]
  · simp [collectRsa, rsaNumbers_of_ne (typ, item) ht, ht, pure, Except.pure]

lemma foldlM_collectRsa (l : List (String × Val)) (rk : List (Nat × Nat)) (h : Numbered l) :
    ∃ rk', l.foldlM collectRsa rk = .ok rk' ∧ ∀ p, p ∈ rk' ↔ p ∈ rk ∨ p ∈ rsaPairs l := by
  induction l generalizing rk with
  | nil => exact ⟨rk, rfl, by simp [rsaPairs]⟩
  | cons e l ih =>
    have hl : Numbered l := fun e' he' => h e' (List.mem_cons_of_mem _ he')
    obtain ⟨rk₁, h₁, hmem₁⟩ := collectRsa_ok rk e (h e (List.mem_cons_self _ _))
    obtain ⟨rk', h', hmem'⟩ := ih rk₁ hl
    refine ⟨rk', by simp only [List.foldlM_cons, h₁]; exact h', fun p => ?_⟩
    rw [hmem', hmem₁, ← List.singleton_append, rsaPairs_append, rsaPairs_singleton,
      List.mem_append, Option.mem_toList, Option.mem_def, or_assoc]

/-- `rkeys` holds exactly the numbers of the rsa entries of the list built so far. -/
def Tracks (acc : List (String × Val) × List (Nat × Nat)) : Prop :=
  ∀ p, p ∈ acc.2 ↔ p ∈ rsaPairs acc.1

lemma extendStep_ok (acc : List (String × Val) × List (Nat × Nat)) (e : String × Val)
    (hacc : Tracks acc) (he : e.1 = "rsa" → rsaNumbers e ≠ none) :
    ∃ acc', extendStep acc e = .ok acc' ∧
      acc'.1 = (if fresh acc.1 e then acc.1 ++ [e] else acc.1) ∧ Tracks acc' := by
  obtain ⟨l, rk⟩ := acc
  obtain ⟨typ, item⟩ := e
  by_cases ht : typ = "rsa"
  · subst ht
    cases item with
    | rsa o =>
      have hnum : rsaNumbers ("rsa", .rsa o) = some (o.n, o.e) := by simp [rsaNumbers]
      have hiff := hacc (o.n, o.e)
      by_cases hk : (o.n, o.e) ∈ rk
      · exact ⟨(l, rk), by simp [extendStep, nePair, hk, bind, Except.bind, pure, Except.pure],
          by simp [fresh, hnum, hiff.mp hk], hacc⟩
      · refine ⟨(l ++ [("rsa", .rsa o)], rk.insert (o.n, o.e)),
          by simp [extendStep, nePair, hk, bind, Except.bind, pure, Except.pure],
          by simp [fresh, hnum, mt hiff.mpr hk], fun p => ?_⟩
        simp [hnum, hacc p, or_comm]
    | _ => exact absurd rfl (he rfl)
  · have hnum := rsaNumbers_of_ne (typ, item) ht
    exact ⟨(l ++ [(typ, item)], rk), by simp [extendStep, ht, pure, Except.pure],
      by simp [fresh, hnum], fun p => by simp [hnum, hacc p]⟩

lemma foldlM_extendStep (keys : List (String × Val))
    (acc : List (String × Val) × List (Nat × Nat)) (hacc : Tracks acc) (h : Numbered keys) :
    ∃ acc', keys.foldlM extendStep acc = .ok acc' ∧ acc'.1 = appendFresh acc.1 keys := by
  induction keys generalizing acc with
  | nil => exact ⟨acc, rfl, rfl⟩
  | cons e keys ih =>
    obtain ⟨acc₁, h₁, hl₁, ht₁⟩ := extendStep_ok acc e hacc (h e (List.mem_cons_self _ _))
    obtain ⟨acc', h', hl'⟩ := ih acc₁ ht₁ fun e' he' => h e' (List.mem_cons_of_mem _ he')
    refine ⟨acc', by simp only [List.foldlM_cons, h₁]; exact h', ?_⟩
    rw [hl', hl₁, appendFresh]

lemma uniqExt_eq (lst keys : List (String × Val)) (h : Numbered (lst ++ keys)) :
    uniqExt lst keys = .ok (appendFresh lst keys) := by
  obtain ⟨rk, h₁, hmem⟩ := foldlM_collectRsa lst [] fun e he => h e (List.mem_append_left _ he)
  obtain ⟨acc, h₂, hacc⟩ := foldlM_extendStep keys (lst, rk) (fun p => by simpa using hmem p)
    fun e he => h e (List.mem_append_right _ he)
  simp only [uniqExt, h₁, h₂, bind, Except.bind, pure, Except.pure, hacc]

lemma appendFresh_extends (lst keys : List (String × Val)) :
    ∃ ks, appendFresh lst keys = lst ++ ks ∧ ks.Sublist keys := by
  induction keys generalizing lst with
  | nil => exact ⟨[], by simp [appendFresh], List.Sublist.refl _⟩
  | cons e keys ih =>
    rw [appendFresh]
    split_ifs
    · obtain ⟨ks, h, hs⟩ := ih (lst ++ [e])
      exact ⟨e :: ks, by simp [h], hs.cons₂ e⟩
    · obtain ⟨ks, h, hs⟩ := ih lst
      exact ⟨ks, h, hs.cons e⟩

lemma mem_rsaPairs_appendFresh (lst keys : List (String × Val)) (p : Nat × Nat) :
    p ∈ rsaPairs (appendFresh lst keys) ↔ p ∈ rsaPairs (lst ++ keys) := by
  induction keys generalizing lst with
  | nil => simp [appendFresh]
  | cons e keys ih =>
    rw [appendFresh, ih]
    split_ifs with hf
    · simp
    · cases hq : rsaNumbers e with
      | none => simp [fresh, hq] at hf
      | some q =>
        have hseen : q ∈ rsaPairs lst := by simpa [fresh, hq] using hf
        rw [← List.singleton_append]
        simp only [rsaPairs_append, rsaPairs_singleton, hq, Option.toList_some, List.mem_append,
          List.mem_singleton]
        by_cases hpq : p = q
        · subst hpq; simp [hseen]
        · simp [hpq]

lemma filter_appendFresh (lst keys : List (String × Val)) :
    (appendFresh lst keys).filter (fun e => e.1 ≠ "rsa") =
      (lst ++ keys).filter (fun e => e.1 ≠ "rsa") := by
  induction keys generalizing lst with
  | nil => simp [appendFresh]
  | cons e keys ih =>
    rw [appendFresh, ih]
    by_cases ht : e.1 = "rsa"
    · split_ifs <;> simp [ht]
    · have hf : fresh lst e = true := by simp [fresh, rsaNumbers_of_ne e ht]
      simp [hf]

lemma nodup_rsaPairs_appendFresh (lst keys : List (String × Val)) (h : (rsaPairs lst).Nodup) :
    (rsaPairs (appendFresh lst keys)).Nodup := by
  induction keys generalizing lst with
  | nil => exact h
  | cons e keys ih =>
    rw [appendFresh]
    split_ifs with hf
    · apply ih
      rw [rsaPairs_append, rsaPairs_singleton]
      cases hq : rsaNumbers e with
      | none => simpa using h
      | some q =>
        have hq' : q ∉ rsaPairs lst := by simpa [fresh, hq] using hf
        simpa [List.nodup_append, hq'] using h
    · exact ih lst h

/-- `uniq_ext` appends exactly the entries of `keys` fresh for the list built so far. -/
theorem uniq_ext_fresh (lst keys : List (String × Val)) (h : Numbered (lst ++ keys)) :
    uniqExt lst keys = .ok (appendFresh lst keys) ∧
      (∃ ks, appendFresh lst keys = lst ++ ks ∧ ks.Sublist keys) ∧
      (∀ p, p ∈ rsaPairs (appendFresh lst keys) ↔ p ∈ rsaPairs (lst ++ keys)) ∧
      (appendFresh lst keys).filter (fun e => e.1 ≠ "rsa") =
        (lst ++ keys).filter (fun e => e.1 ≠ "rsa") ∧
      ((rsaPairs lst).Nodup → (rsaPairs (appendFresh lst keys)).Nodup) :=
  ⟨uniqExt_eq lst keys h, appendFresh_extends lst keys, mem_rsaPairs_appendFresh lst keys,
    filter_appendFresh lst keys, nodup_rsaPairs_appendFresh lst keys⟩

lemma foldlM_error_of_mem {σ : Type} (f : σ → String × Val → Except Exc σ) (e : String × Val)
    (err : Exc) (hf : ∀ acc x err', f acc x = .error err' → err' = err)
    (he : ∀ acc, f acc e = .error err) :
    ∀ (l : List (String × Val)) (acc : σ), e ∈ l → l.foldlM f acc = .error err
  | [], _, h => absurd h (List.not_mem_nil _)
  | x :: xs, acc, h => by
    rw [List.foldlM_cons]
    cases hx : f acc x with
    | error err' => rw [hf acc x err' hx]; rfl
    | ok acc' =>
      have hxs : e ∈ xs := by
        rcases List.mem_cons.mp h with rfl | h
        · rw [he acc] at hx; cases hx
        · exact h
      exact foldlM_error_of_mem f e err hf he xs acc' hxs

lemma nePair_error (v : Val) (err : Exc) (h : nePair v = .error err) :
    err = .attributeError "n" := by
  cases v <;> simp_all [nePair]

lemma collectRsa_error (rk : List (Nat × Nat)) (e : String × Val) (err : Exc)
    (h : collectRsa rk e = .error err) : err = .attributeError "n" := by
  unfold collectRsa at h
  split_ifs at h
  · cases hn : nePair e.2 with
    | error err' => simp only [hn, bind, Except.bind] at h; cases h; exact nePair_error _ _ hn
    | ok key => simp [hn, bind, Except.bind, pure, Except.pure] at h
  · cases h

lemma extendStep_error (acc : List (String × Val) × List (Nat × Nat)) (e : String × Val)
    (err : Exc) (h : extendStep acc e = .error err) : err = .attributeError "n" := by
  unfold extendStep at h
  split_ifs at h
  · cases h
  · cases hn : nePair e.2 with
    | error err' => simp only [hn, bind, Except.bind] at h; cases h; exact nePair_error _ _ hn
    | ok key => simp only [hn, bind, Except.bind] at h; split_ifs at h <;> cases h

lemma nePair_of_unnumbered (e : String × Val) (ht : e.1 = "rsa") (hn : rsaNumbers e = none) :
    nePair e.2 = .error (.attributeError "n") := by
  obtain ⟨typ, item⟩ := e
  cases item <;> simp_all [rsaNumbers, nePair, Except.toOption]

/-- `uniq_ext` raises `AttributeError` on `n` exactly when an rsa entry has no numbers. -/
theorem uniq_ext_raises (lst keys : List (String × Val)) :
    (Numbered (lst ++ keys) → ∃ l, uniqExt lst keys = .ok l) ∧
      (¬Numbered (lst ++ keys) → uniqExt lst keys = .error (.attributeError "n")) := by
  refine ⟨fun h => ⟨_, uniqExt_eq lst keys h⟩, fun h => ?_⟩
  obtain ⟨e, hmem, ht, hn⟩ : ∃ e ∈ lst ++ keys, e.1 = "rsa" ∧ rsaNumbers e = none := by
    simpa [Numbered] using h
  have hpair := nePair_of_unnumbered e ht hn
  by_cases hl : Numbered lst
  · obtain ⟨rk, h₁, -⟩ := foldlM_collectRsa lst [] hl
    have hk : e ∈ keys := (List.mem_append.mp hmem).resolve_left fun he => hl e he ht hn
    have h₂ := foldlM_error_of_mem extendStep e _ extendStep_error
      (fun acc => by simp [extendStep, ht, hpair, bind, Except.bind]) keys (lst, rk) hk
    simp only [uniqExt, h₁, h₂, bind, Except.bind]
  · obtain ⟨e', he', ht', hn'⟩ : ∃ e ∈ lst, e.1 = "rsa" ∧ rsaNumbers e = none := by
      simpa [Numbered] using hl
    have h₁ := foldlM_error_of_mem collectRsa e' _ collectRsa_error
      (fun rk => by simp [collectRsa, ht', nePair_of_unnumbered e' ht' hn', bind, Except.bind])
      lst [] he'
    simp only [uniqExt, h₁, bind, Except.bind]

def sampleKeys : List (String × Val) :=
  [("rsa", .rsa ⟨2, 7, 3⟩), ("hmac", .str "s"), ("rsa", .rsa ⟨3, 9, 3⟩), ("rsa", .rsa ⟨4, 9, 3⟩)]

theorem uniq_ext_fresh_at_sample :
    Numbered ([("rsa", .rsa ⟨1, 7, 3⟩)] ++ sampleKeys) ∧
      uniqExt [("rsa", .rsa ⟨1, 7, 3⟩)] sampleKeys =
        .ok (appendFresh [("rsa", .rsa ⟨1, 7, 3⟩)] sampleKeys) :=
  ⟨by decide, (uniq_ext_fresh _ _ (by decide)).1⟩

theorem uniq_ext_raises_at_secret :
    ¬Numbered ([] ++ [("rsa", .str "secret")]) ∧
      uniqExt [] [("rsa", .str "secret")] = .error (.attributeError "n") :=
  ⟨by decide, (uniq_ext_raises [] [("rsa", .str "secret")]).2 (by decide)⟩

example : uniqExt [("rsa", .rsa ⟨1, 7, 3⟩)] sampleKeys =
    .ok [("rsa", .rsa ⟨1, 7, 3⟩), ("hmac", .str "s"), ("rsa", .rsa ⟨3, 9, 3⟩)] := by
  rfl

end OicKeyio.Dedup
