import ChatClient.Endpoint
import Mathlib.Data.List.DropRight

/-!
# One base URL for one service

The root of a service may be given with the version suffix or without it, and with any
number of slashes behind it. Every URL is a root that ends in no slash, followed by
slashes, and what becomes of it depends on the root alone: the suffix is added unless it
is there. So a URL in normal form stays as it is, and all ways of giving one root lead to
one base URL.
-/

namespace ChatClient

namespace Text

/-- Trimming drops from the right. -/
theorem trimEnd_eq_rdropWhile (p : Char → Bool) (cs : List Char) :
    trimEnd p cs = cs.rdropWhile p := rfl

/-- What is trimmed may be added before. -/
theorem trimEnd_append_of_pos {p : Char → Bool} {tail : List Char}
    (htail : ∀ c ∈ tail, p c = true) (cs : List Char) :
    trimEnd p (cs ++ tail) = trimEnd p cs := by
  have hreverse : ∀ c ∈ tail.reverse, p c = true := by simpa using htail
  rw [trimEnd, List.reverse_append, List.dropWhile_append_of_pos hreverse, trimEnd]

/-- A text whose last character stays is left as it is. -/
theorem trimEnd_of_getLast? {p : Char → Bool} {cs : List Char}
    (hlast : ∀ c ∈ cs.getLast?, p c = false) : trimEnd p cs = cs := by
  rw [trimEnd_eq_rdropWhile, List.rdropWhile_eq_self_iff]
  intro hne
  have hfalse := hlast (cs.getLast hne) (List.getLast?_eq_some_getLast hne)
  simp [hfalse]

end Text

namespace Endpoint

/-- The version suffix as a text. -/
def suffix : String := String.ofList version

/-- Slashes, as they may stand behind a URL. -/
def slashes (count : Nat) : String := String.ofList (List.replicate count '/')

/-- The URL ends in the version suffix. -/
def IsVersioned (url : String) : Prop := version <:+ url.toList

/-- The URL ends in a slash. -/
def EndsInSlash (url : String) : Prop := url.toList.getLast? = some '/'

instance : DecidablePred IsVersioned := fun url =>
  inferInstanceAs (Decidable (version <:+ url.toList))

instance : DecidablePred EndsInSlash := fun url =>
  inferInstanceAs (Decidable (url.toList.getLast? = some '/'))

/-! ## Roots -/

/-- A URL with the suffix behind it ends in the suffix. -/
theorem isVersioned_append (root : String) : IsVersioned (root ++ suffix) :=
  ⟨root.toList, by simp [suffix]⟩

/-- The suffix ends in no slash. -/
theorem IsVersioned.not_endsInSlash {url : String} (hversioned : IsVersioned url) :
    ¬EndsInSlash url := by
  obtain ⟨before, hbefore⟩ := hversioned
  simp [EndsInSlash, ← hbefore, version]

/-- Every URL is a root that ends in no slash, with slashes behind it. -/
theorem exists_root (url : String) :
    ∃ root count, url = root ++ slashes count ∧ ¬EndsInSlash root := by
  suffices hlist : ∀ cs : List Char, ∃ (root : List Char) (count : Nat),
      cs = root ++ List.replicate count '/' ∧ root.getLast? ≠ some '/' by
    obtain ⟨root, count, hurl, hlast⟩ := hlist url.toList
    refine ⟨String.ofList root, count, ?_, by simpa [EndsInSlash] using hlast⟩
    apply String.toList_injective
    simpa [slashes] using hurl
  -- The slashes are at the end, so the list is taken apart from there.
  intro cs
  induction cs using List.reverseRecOn with
  | nil => exact ⟨[], 0, rfl, by simp⟩
  | append_singleton cs c ih =>
    by_cases hc : c = '/'
    · obtain ⟨root, count, rfl, hlast⟩ := ih
      refine ⟨root, count + 1, ?_, hlast⟩
      rw [hc, List.replicate_succ', List.append_assoc]
    · exact ⟨cs ++ [c], 0, by simp, by simpa using hc⟩

/-! ## Normal forms -/

/-- Slashes behind a URL are of no account. -/
theorem normalise_append_slashes (url : String) (count : Nat) :
    normalise (url ++ slashes count) = normalise url := by
  have hslashes : ∀ c ∈ List.replicate count '/', decide (c = '/') = true := by
    intro c hc
    simpa using List.eq_of_mem_replicate hc
  have htrim : Text.trimEnd (· = '/') (url ++ slashes count).toList =
      Text.trimEnd (· = '/') url.toList := by
    rw [slashes, String.toList_append, String.toList_ofList, Text.trimEnd_append_of_pos hslashes]
  rw [normalise, htrim, normalise]

/-- A root is left as it is or gets the suffix. -/
theorem normalise_root {root : String} (hroot : ¬EndsInSlash root) :
    normalise root = if IsVersioned root then root else root ++ suffix := by
  have htrim : Text.trimEnd (· = '/') root.toList = root.toList := by
    apply Text.trimEnd_of_getLast?
    intro c hc
    rw [decide_eq_false_iff_not]
    rintro rfl
    exact hroot hc
  rw [normalise, htrim]
  by_cases hversioned : IsVersioned root
  · rw [if_pos hversioned, if_pos (List.isSuffixOf_iff_suffix.mpr hversioned),
      String.ofList_toList]
  · rw [if_neg hversioned, if_neg (mt List.isSuffixOf_iff_suffix.mp hversioned),
      String.ofList_append, String.ofList_toList, suffix]

/-- A normal form ends in the suffix. -/
theorem isVersioned_normalise (url : String) : IsVersioned (normalise url) := by
  obtain ⟨root, count, rfl, hroot⟩ := exists_root url
  rw [normalise_append_slashes, normalise_root hroot]
  split
  · assumption
  · exact isVersioned_append root

/-- A URL that ends in the suffix is in normal form. -/
theorem IsVersioned.normalise_eq {url : String} (hversioned : IsVersioned url) :
    normalise url = url := by
  rw [normalise_root hversioned.not_endsInSlash, if_pos hversioned]

/-- An endpoint has the normal form of the URL that it was set up with. -/
theorem baseUrl_of_connect {transport : Transport} {environment : Environment}
    {key retries timeout : Json} {url : String} {endpoint : Endpoint}
    (hconnect : connect transport environment key (.str url) retries timeout = .ok endpoint) :
    endpoint.baseUrl = normalise url := by
  simp only [connect] at hconnect
  split at hconnect
  · rw [← Except.ok.inj hconnect]
  · contradiction

/-- **Normal forms of base URLs.** Whatever text is given, an endpoint has its normal form,
which ends in the version suffix, and not in a slash. Normal forms stay as they are,
slashes behind a text are of no account, and the root in front of them decides: it is
kept where it ends in the suffix, and else the suffix is added once, with which the root
might have been given as well. -/
theorem normalise_canonical (url : String) :
    (∀ transport environment key retries timeout endpoint,
      connect transport environment key (.str url) retries timeout = .ok endpoint →
        endpoint.baseUrl = normalise url) ∧
    IsVersioned (normalise url) ∧ ¬EndsInSlash (normalise url) ∧
    normalise (normalise url) = normalise url ∧
    (∀ count, normalise (url ++ slashes count) = normalise url) ∧
    ∀ root count, url = root ++ slashes count → ¬EndsInSlash root →
      (IsVersioned root → normalise url = root) ∧
      (¬IsVersioned root → normalise url = root ++ suffix ∧
        ∀ further, normalise (root ++ suffix ++ slashes further) = normalise url) := by
  have hversioned := isVersioned_normalise url
  refine ⟨fun _ _ _ _ _ _ => baseUrl_of_connect, hversioned, hversioned.not_endsInSlash,
    hversioned.normalise_eq, normalise_append_slashes url, ?_⟩
  rintro root count rfl hroot
  rw [normalise_append_slashes, normalise_root hroot]
  constructor
  · exact fun hgiven => if_pos hgiven
  · intro hmissing
    rw [if_neg hmissing]
    refine ⟨rfl, fun further => ?_⟩
    rw [normalise_append_slashes, (isVersioned_append root).normalise_eq]

/-- An endpoint at a root behind which slashes were given. -/
theorem connect_localRoot :
    connect .keyed [] (.str "k") (.str "http://localhost/api//") (.int 0) .null =
      .ok ⟨"http://localhost/api/v1", .str "k", .int 0, .null⟩ := by
  decide +kernel

/-- A root without the suffix gets it, and one that has it keeps it. -/
theorem normalise_canonical_localRoots :
    ("http://localhost/api//" = "http://localhost/api" ++ slashes 2 ∧
      ¬EndsInSlash "http://localhost/api" ∧ ¬IsVersioned "http://localhost/api" ∧
      (⟨"http://localhost/api/v1", .str "k", .int 0, .null⟩ : Endpoint).baseUrl =
        normalise "http://localhost/api//" ∧
      normalise ("http://localhost/api" ++ suffix ++ slashes 3) =
        normalise "http://localhost/api//") ∧
    ("http://localhost/v1/" = "http://localhost/v1" ++ slashes 1 ∧
      ¬EndsInSlash "http://localhost/v1" ∧ IsVersioned "http://localhost/v1" ∧
      normalise "http://localhost/v1/" = "http://localhost/v1") := by
  have hlong : "http://localhost/api//" = "http://localhost/api" ++ slashes 2 := by decide
  have hshort : "http://localhost/v1/" = "http://localhost/v1" ++ slashes 1 := by decide
  have hroot : ¬EndsInSlash "http://localhost/api" := by decide
  have hbare : ¬IsVersioned "http://localhost/api" := by decide
  have hroot' : ¬EndsInSlash "http://localhost/v1" := by decide
  have hversioned : IsVersioned "http://localhost/v1" := by decide
  obtain ⟨hendpoint, _, _, _, _, hroots⟩ := normalise_canonical "http://localhost/api//"
  obtain ⟨_, _, _, _, _, hroots'⟩ := normalise_canonical "http://localhost/v1/"
  have hbase := hendpoint .keyed [] (.str "k") (.int 0) .null _ connect_localRoot
  have hsame := ((hroots _ 2 hlong hroot).2 hbare).2 3
  have hkept := (hroots' _ 1 hshort hroot').1 hversioned
  exact ⟨⟨hlong, hroot, hbare, hbase, hsame⟩, hshort, hroot', hversioned, hkept⟩

end Endpoint

end ChatClient
