import OicKeyio.Python

set_option autoImplicit false

/-!
# Vault paths

`proper_path` turns a directory name into one under the working directory,
`"./" <path> "/"` as its docstring puts it, and `key_setup` reads and writes its
RSA key pair under `proper_path(vault)`. A path that starts with a dot but not
with `./` loses all its leading dots, and gets `./` back only when a `/`
followed them: `.hidden` becomes `hidden/`, and `.` or `..` becomes `/`, the
filesystem root. `bareDotted` names these inputs.
-/
namespace OicKeyio.Paths

/-- `while path.startswith("."): path = path[1:]`, on the characters. -/
def stripDots : List Char → List Char
  | '.' :: rest => stripDots rest
  | cs => cs

def prefixDot (path : String) : String :=
  if Py.startswith path "./" then path
  else if Py.startswith path "/" then "." ++ path
  else if Py.startswith path "." then
    let path : String := ⟨stripDots path.data⟩
    if Py.startswith path "/" then "." ++ path else path
  else "./" ++ path

/-- `proper_path(path)` -/
def properPath (path : String) : String :=
  let path := prefixDot path
  if Py.endswith path "/" then path else path ++ "/"

/-- The file `key_setup(vault)` loads its key pair from, or stores a new pair at. -/
def keySetupFile (vault : String) : String := properPath vault ++ "pyoidc"

/-- A path the dot branch leaves without `./`: a dot first, no `./`, no `/` after the dots. -/
def bareDotted (path : String) : Bool :=
  Py.startswith path "." && !Py.startswith path "./" && !Py.startswith ⟨stripDots path.data⟩ "/"

lemma stripDots_cons (c : Char) (cs : List Char) :
    stripDots (c :: cs) = if c = '.' then stripDots cs else c :: cs := by
  by_cases h : c = '.'
  · subst h; rw [if_pos rfl, stripDots.eq_1]
  · rw [if_neg h, stripDots.eq_2]
    intro rest hr
    exact h (List.cons.inj hr).1

lemma stripDots_loop (path : String) :
    stripDots path.data =
      if Py.startswith path "." then stripDots (Py.drop path 1).data else path.data := by
  obtain ⟨cs⟩ := path
  cases cs with
  | nil => rfl
  | cons c cs =>
    rw [stripDots_cons]
    by_cases h : c = '.'
    · subst h
      rw [if_pos rfl, if_pos (by simp [Py.startswith] : Py.startswith ⟨'.' :: cs⟩ "." = true)]
      rfl
    · simp [Py.startswith, Py.drop, h, Ne.symm h]

lemma stripDots_head (cs : List Char) : (stripDots cs).head? ≠ some '.' := by
  induction cs with
  | nil => simp [stripDots]
  | cons c cs ih => by_cases h : c = '.' <;> simp [stripDots_cons, h, ih]

lemma head_of_startswith {s : String} {c : Char} {cs : List Char}
    (h : Py.startswith s ⟨c :: cs⟩ = true) : s.data.head? = some c := by
  unfold Py.startswith at h
  obtain ⟨t, ht⟩ := List.isPrefixOf_iff_prefix.mp h
  rw [← ht]
  rfl

lemma startswith_of_head_ne {s : String} {c : Char} {cs : List Char}
    (h : s.data.head? ≠ some c) : Py.startswith s ⟨c :: cs⟩ = false := by
  cases hs : Py.startswith s ⟨c :: cs⟩
  · rfl
  · exact absurd (head_of_startswith hs) h

lemma startswith_dot_append (s : String) (h : Py.startswith s "/" = true) :
    Py.startswith ("." ++ s) "./" = true := by
  unfold Py.startswith at *
  rw [List.isPrefixOf_iff_prefix] at *
  exact (List.prefix_cons_inj '.').mpr h

lemma prefixDot_dotSlash (p : String) (h : bareDotted p = false) :
    Py.startswith (prefixDot p) "./" = true := by
  unfold prefixDot
  dsimp only
  split_ifs with h1 h2 h3 h4
  · exact h1
  · exact startswith_dot_append p h2
  · exact startswith_dot_append _ h4
  · simp [bareDotted, h1, h3, h4] at h
  · exact Py.startswith_append "./" p

lemma prefixDot_bare (p : String) (h : bareDotted p = true) :
    prefixDot p = ⟨stripDots p.data⟩ := by
  simp only [bareDotted, Bool.and_eq_true, Bool.not_eq_true'] at h
  have h2 : Py.startswith p "/" = false :=
    startswith_of_head_ne (by rw [head_of_startswith h.1.1]; decide)
  simp [prefixDot, h.1.1, h.1.2, h.2, h2]

lemma prefix_slashed (x : String) : x.data <+: (if Py.endswith x "/" then x else x ++ "/").data := by
  split_ifs
  · exact List.prefix_refl _
  · exact List.prefix_append _ _

lemma endswith_slashed (x : String) :
    Py.endswith (if Py.endswith x "/" then x else x ++ "/") "/" = true := by
  split_ifs with h
  · exact h
  · unfold Py.endswith
    exact List.isSuffixOf_iff_suffix.mpr (List.suffix_append _ _)

lemma head_slashed_stripDots (cs : List Char) :
    (if Py.endswith ⟨stripDots cs⟩ "/" then ⟨stripDots cs⟩ else (⟨stripDots cs⟩ ++ "/" : String)).data.head? ≠ some '.' := by
  have hs := stripDots_head cs
  split_ifs
  · exact hs
  · cases h : stripDots cs with
    | nil => simp
    | cons c cs' => simpa [h] using hs

lemma properPath_dotSlash (p : String) (h : bareDotted p = false) :
    Py.startswith (properPath p) "./" = true := by
  have h1 := prefixDot_dotSlash p h
  unfold Py.startswith at *
  rw [List.isPrefixOf_iff_prefix] at *
  exact h1.trans (prefix_slashed _)

lemma properPath_bare (p : String) (h : bareDotted p = true) :
    properPath p = if Py.endswith ⟨stripDots p.data⟩ "/" then ⟨stripDots p.data⟩
      else ⟨stripDots p.data⟩ ++ "/" := by
  rw [properPath, prefixDot_bare p h]

lemma properPath_bare_head (p : String) (h : bareDotted p = true) :
    (properPath p).data.head? ≠ some '.' := by
  rw [properPath_bare p h]
  exact head_slashed_stripDots _

lemma properPath_of_dotSlash (q : String) (h1 : Py.startswith q "./" = true)
    (h2 : Py.endswith q "/" = true) : properPath q = q := by
  simp [properPath, prefixDot, h1, h2]

/-- `proper_path(p)` ends with `/` and starts with `./` unless `p` is bare-dotted. -/
theorem proper_path_shape (p : String) :
    Py.endswith (properPath p) "/" = true ∧
      (Py.startswith (properPath p) "./" = true ↔ bareDotted p = false) ∧
      (properPath (properPath p) = properPath p ↔ bareDotted p = false) ∧
      (bareDotted p = true → properPath p =
        if Py.endswith ⟨stripDots p.data⟩ "/" then ⟨stripDots p.data⟩
        else ⟨stripDots p.data⟩ ++ "/") := by
  have hend : Py.endswith (properPath p) "/" = true := endswith_slashed _
  refine ⟨hend, ⟨fun hs => ?_, properPath_dotSlash p⟩, ⟨fun hq => ?_, fun hb =>
    properPath_of_dotSlash _ (properPath_dotSlash p hb) hend⟩, properPath_bare p⟩
  · cases hb : bareDotted p
    · rfl
    · exact absurd (head_of_startswith hs) (properPath_bare_head p hb)
  · cases hb : bareDotted p
    · rfl
    · have hhead := properPath_bare_head p hb
      have hdot : Py.startswith (properPath p) "." = false := startswith_of_head_ne hhead
      have hs := properPath_dotSlash (properPath p) (by simp [bareDotted, hdot])
      rw [hq] at hs
      exact absurd (head_of_startswith hs) hhead

/-- `proper_path(".")` is the root, so `key_setup(".")` uses `/pyoidc`. -/
theorem proper_path_dot_is_root :
    properPath "." = "/" ∧ keySetupFile "." = "/pyoidc" ∧ properPath "/" = "./" ∧
      properPath (properPath ".") ≠ properPath "." :=
  ⟨rfl, rfl, rfl, fun h => absurd ((proper_path_shape ".").2.2.1.mp h) (by decide)⟩

/-- `key_export`'s directory, `proper_path("%s/%s" % (_path, local_path))`. -/
def exportDir (path localPath : String) : String :=
  let _path := if Py.endswith path "/" then Py.dropLast path else path
  properPath (_path ++ "/" ++ localPath)

def exportFilename (path localPath : String) : String := exportDir path localPath ++ "jwks"

/-- The URL `key_export` returns. -/
def keyExportUrl (scheme netloc path localPath : String) : String :=
  scheme ++ "://" ++ netloc ++ Py.drop (exportFilename path localPath) 1

lemma startswith_of_head {s : String} {c : Char} (h : s.data.head? = some c) :
    Py.startswith s ⟨[c]⟩ = true := by
  obtain ⟨cs⟩ := s
  cases cs with
  | nil => cases h
  | cons d ds =>
    cases h
    simp [Py.startswith, List.isPrefixOf]

lemma head_exportArg (path localPath : String) (h : path = "" ∨ Py.startswith path "/" = true) :
    ((if Py.endswith path "/" then Py.dropLast path else path) ++ "/" ++ localPath).data.head? =
      some '/' := by
  have htrim : (if Py.endswith path "/" then Py.dropLast path else path).data = [] ∨
      (if Py.endswith path "/" then Py.dropLast path else path).data.head? = some '/' := by
    rcases h with rfl | h
    · exact Or.inl rfl
    · obtain ⟨cs⟩ := path
      have hd := head_of_startswith h
      cases cs with
      | nil => cases hd
      | cons c cs =>
        cases hd
        split_ifs
        · cases cs <;> simp [Py.dropLast, List.dropLast]
        · exact Or.inr rfl
  rcases htrim with h0 | h0 <;> simp [h0, List.head?_append]

lemma prefixDot_of_slash (q : String) (h : q.data.head? = some '/') : prefixDot q = "." ++ q := by
  have h1 : Py.startswith q "./" = false := startswith_of_head_ne (by rw [h]; decide)
  have h2 : Py.startswith q "/" = true := startswith_of_head h
  simp [prefixDot, h1, h2]

lemma endswith_dot_append (q : String) : Py.endswith ("." ++ q) "/" = Py.endswith q "/" := by
  unfold Py.endswith
  rw [Bool.eq_iff_iff, List.isSuffixOf_iff_suffix, List.isSuffixOf_iff_suffix]
  change ['/'] <:+ '.' :: q.data ↔ _
  rw [List.suffix_cons_iff]
  simp

/-- The URL `key_export` returns names the file it writes. -/
theorem key_export_url_names_file (scheme netloc path localPath : String)
    (hpath : path = "" ∨ Py.startswith path "/" = true) :
    ∃ urlPath, Py.startswith urlPath "/" = true ∧ Py.endswith urlPath "/jwks" = true ∧
      exportFilename path localPath = "." ++ urlPath ∧
      keyExportUrl scheme netloc path localPath = scheme ++ "://" ++ netloc ++ urlPath := by
  have hq := head_exportArg path localPath hpath
  have hdir : exportDir path localPath = properPath
      ((if Py.endswith path "/" then Py.dropLast path else path) ++ "/" ++ localPath) := rfl
  generalize (if Py.endswith path "/" then Py.dropLast path else path) ++ "/" ++ localPath = q
    at hq hdir
  have hfile : exportFilename path localPath =
      "." ++ ((if Py.endswith q "/" then q else q ++ "/") ++ "jwks") := by
    rw [exportFilename, hdir, properPath, prefixDot_of_slash q hq, endswith_dot_append]
    split_ifs <;> simp only [String.append_assoc]
  refine ⟨_, ?_, ?_, hfile, by rw [keyExportUrl, hfile, Py.drop_append "." _ 1 rfl]⟩
  · have hslash := startswith_of_head hq
    unfold Py.startswith at *
    rw [List.isPrefixOf_iff_prefix] at *
    exact (hslash.trans (prefix_slashed q)).trans (List.prefix_append _ _)
  · have hend := endswith_slashed q
    unfold Py.endswith at *
    rw [List.isSuffixOf_iff_suffix] at *
    obtain ⟨t, ht⟩ := hend
    exact ⟨t, by rw [String.data_append, ← ht, List.append_assoc]; rfl⟩

theorem key_export_url_names_file_at_root :
    ("/" = "" ∨ Py.startswith "/" "/" = true) ∧
      ∃ urlPath, Py.startswith urlPath "/" = true ∧ Py.endswith urlPath "/jwks" = true ∧
        exportFilename "/" "static" = "." ++ urlPath ∧
        keyExportUrl "https" "op.example" "/" "static" = "https" ++ "://" ++ "op.example" ++ urlPath :=
  ⟨by decide, key_export_url_names_file "https" "op.example" "/" "static" (by decide)⟩

example : keyExportUrl "https" "op.example" "/" "static" = "https://op.example/static/jwks" := by
  rfl

end OicKeyio.Paths
