import HermesA2A.Lib.IpAddress
import Mathlib.Data.List.DropRight

/-!
# URLs

What Python's `urllib.parse.urlparse` makes of a URL, as far as the scheme and the
authority, and the `hostname` of the result.  Texts are lists of characters; a
`ValueError` is a `UrlError`.

Beyond ASCII, `str.lower`, `str.isdigit` and the normal form NFKC are tables.  A
`CharData` has them, with what is relied on: which characters become ASCII characters
in lower case.

* `SplitUrl.hostname` — user-info and port removed, brackets removed, in lower case.
* `hostname_of_plain` — without user-info and brackets, it is the text before the first
  colon, in lower case.
-/

/-! ### Characters -/

/-- What a character may become in lower case.  Beyond ASCII, only the Kelvin sign becomes
an ASCII character, and the capital I with a dot an `i` with one. -/
def Lowered (c : Char) (piece : List Char) : Prop :=
  if c.toNat < 128 then piece = [c.toLower]
  else piece = ['k'] ∨ (∃ d ∈ piece, 128 ≤ d.toNat) ∧ ∀ d ∈ piece, d.toNat < 128 → d = 'i'

/-- The Unicode tables. -/
structure CharData where
  /-- `str.lower` -/
  lower : List Char → List Char
  /-- `unicodedata.normalize("NFKC", …)` -/
  nfkc : List Char → List Char
  /-- `str.isdigit`, of one character -/
  isDigit : Char → Bool
  lower_spec : ∀ text, ∃ pieces, List.Forall₂ Lowered text pieces ∧ lower text = pieces.flatten
  isDigit_ascii : ∀ c, c.toNat < 128 → isDigit c = c.isDigit

/-- Every character is in its own piece. -/
theorem exists_of_mem_flatten {text : List Char} {pieces : List (List Char)} {d : Char}
    (h : List.Forall₂ Lowered text pieces) (hd : d ∈ pieces.flatten) :
    ∃ c ∈ text, ∃ piece, Lowered c piece ∧ d ∈ piece := by
  induction h with
  | nil => exact nomatch hd
  | @cons c piece text pieces hc _ ih =>
      rw [List.flatten_cons, List.mem_append] at hd
      rcases hd with hd | hd
      · exact ⟨c, List.mem_cons_self, piece, hc, hd⟩
      · obtain ⟨c', hmem, hrest⟩ := ih hd
        exact ⟨c', List.mem_cons_of_mem _ hmem, hrest⟩

/-- A letter becomes a small letter, and nothing else changes. -/
theorem toLower_eq_self {c : Char} (hascii : c.toNat < 128) (h : c.toLower.isLower = false) :
    c.toLower = c := by
  have hall : ∀ n : Fin 128, (Char.ofNat n).toLower.isLower = false →
      (Char.ofNat n).toLower = Char.ofNat n := by decide +kernel
  have hc := hall ⟨c.toNat, hascii⟩
  rw [Char.ofNat_toNat] at hc
  exact hc h

namespace CharData

variable {D : CharData} {text : List Char}

/-- An ASCII character of the result that is no letter stands in the text. -/
theorem mem_of_mem_lower {d : Char} (hd : d ∈ D.lower text) (hascii : d.toNat < 128)
    (hletter : d.isLower = false) : d ∈ text := by
  obtain ⟨pieces, hpieces, hlower⟩ := D.lower_spec text
  rw [hlower] at hd
  obtain ⟨c, hc, piece, hpiece, hmem⟩ := exists_of_mem_flatten hpieces hd
  unfold Lowered at hpiece
  split_ifs at hpiece with hsmall
  · rw [hpiece, List.mem_singleton] at hmem
    subst hmem
    rwa [toLower_eq_self hsmall hletter]
  · rcases hpiece with rfl | ⟨-, hi⟩
    · rw [List.mem_singleton.mp hmem] at hletter
      cases hletter
    · rw [hi d hmem hascii] at hletter
      cases hletter

/-- A result without letters is the text itself. -/
theorem lower_eq_self (h : ∀ d ∈ D.lower text, d.toNat < 128 ∧ d.isLower = false) :
    D.lower text = text := by
  obtain ⟨pieces, hpieces, hlower⟩ := D.lower_spec text
  rw [hlower] at h ⊢
  clear hlower
  induction hpieces with
  | nil => rfl
  | @cons c piece text pieces hpiece _ ih =>
      rw [List.flatten_cons] at h ⊢
      have hrest := ih fun d hd => h d (List.mem_append_right _ hd)
      have hfirst : piece = [c] := by
        have hmem : ∀ d ∈ piece, d.toNat < 128 ∧ d.isLower = false := fun d hd =>
          h d (List.mem_append_left _ hd)
        unfold Lowered at hpiece
        split_ifs at hpiece with hsmall
        · rw [hpiece] at hmem ⊢
          rw [toLower_eq_self hsmall (hmem _ (List.mem_singleton_self _)).2]
        · rcases hpiece with rfl | ⟨⟨d, hd, hlarge⟩, -⟩
          · cases (hmem 'k' (List.mem_singleton_self _)).2
          · exact absurd (hmem d hd).1 (Nat.not_lt.mpr hlarge)
      rw [hrest, hfirst]
      rfl

/-- An ASCII text becomes one in small letters. -/
theorem lower_of_ascii (h : ∀ c ∈ text, c.toNat < 128) : D.lower text = text.map Char.toLower := by
  obtain ⟨pieces, hpieces, hlower⟩ := D.lower_spec text
  rw [hlower]
  clear hlower
  induction hpieces with
  | nil => rfl
  | @cons c piece text pieces hpiece _ ih =>
      obtain ⟨hc, hrest⟩ := List.forall_mem_cons.mp h
      rw [Lowered, if_pos hc] at hpiece
      rw [List.flatten_cons, ih hrest, hpiece]
      rfl

@[simp] theorem lower_nil : D.lower [] = [] := lower_of_ascii fun _ hc => nomatch hc

theorem lower_ne_nil (h : text ≠ []) : D.lower text ≠ [] := by
  obtain ⟨pieces, hpieces, hlower⟩ := D.lower_spec text
  rw [hlower]
  cases hpieces with
  | nil => exact absurd rfl h
  | @cons c piece text pieces hpiece _ =>
      intro hnil
      obtain rfl := (List.append_eq_nil_iff.mp hnil).1
      unfold Lowered at hpiece
      split_ifs at hpiece
      rcases hpiece with hk | ⟨⟨d, hd, -⟩, -⟩
      · cases hk
      · cases hd

/-- Tables in which only ASCII characters change. -/
def ascii : CharData where
  lower text := text.map Char.toLower
  nfkc := id
  isDigit := Char.isDigit
  lower_spec := by
    intro text
    refine ⟨text.map fun c => [c.toLower], ?_, List.map_eq_flatMap⟩
    rw [List.forall₂_map_right_iff]
    refine List.forall₂_same.mpr fun c _ => ?_
    unfold Lowered
    split_ifs with hsmall
    · rfl
    · have hself : c.toLower = c := by
        unfold Char.toLower
        refine dif_neg fun hupper => hsmall ?_
        have hle : c.toNat ≤ 90 := hupper.2
        omega
      rw [hself]
      refine Or.inr ⟨⟨c, List.mem_singleton_self c, Nat.not_lt.mp hsmall⟩, ?_⟩
      intro d hd hlt
      rw [List.mem_singleton.mp hd] at hlt
      exact absurd hlt hsmall
  isDigit_ascii _ _ := rfl

end CharData

/-! ### urlsplit -/

/-- Why a URL is not parsed; each one is a `ValueError`. -/
inductive UrlError
  /-- One bracket without the other. -/
  | unbalancedBrackets
  /-- The text in brackets is no IPv6 address. -/
  | bracketedHost
  /-- The authority has other delimiters under NFKC normalization. -/
  | normalization
  deriving DecidableEq

/-- `SplitResult`, with the components that are read. -/
structure SplitUrl where
  scheme : List Char
  netloc : List Char
  deriving DecidableEq

/-- `text.partition(sep)`: what stands before the first separator, … -/
def partitionBefore (sep : Char) (text : List Char) : List Char := text.takeWhile (· ≠ sep)

/-- … and what stands after it. -/
def partitionAfter (sep : Char) (text : List Char) : List Char := (text.dropWhile (· ≠ sep)).drop 1

/-- `text.rpartition(sep)[2]`: what stands after the last separator, or everything. -/
def rpartitionAfter (sep : Char) (text : List Char) : List Char := text.rtakeWhile (· ≠ sep)

/-- `scheme_chars` -/
def isSchemeChar (c : Char) : Bool := c.isAlphanum || c == '+' || c == '-' || c == '.'

/-- The scheme and the rest, where there is a scheme. -/
def splitScheme (D : CharData) (url : List Char) : List Char × List Char :=
  let scheme := partitionBefore ':' url
  if ':' ∈ url ∧ scheme.head?.any Char.isAlpha = true ∧ scheme.all isSchemeChar = true then
    (D.lower scheme, partitionAfter ':' url)
  else ([], url)

/-- `_check_bracketed_host` -/
def checkBracketedHost (host : List Char) : Bool :=
  match host with
  | 'v' :: rest =>
      let version := rest.takeWhile Char.isHexDigit
      match rest.dropWhile Char.isHexDigit with
      | '.' :: address => version ≠ [] ∧ address ≠ []
      | _ => false
  | _ =>
      match IpAddress.ipAddress host with
      | some (.v6 _) => true
      | _ => false

/-- `_checknetloc` -/
def checkNetloc (D : CharData) (netloc : List Char) : Bool :=
  if netloc.all (·.toNat < 128) then true
  else
    let n := netloc.filter (· ∉ ['@', ':', '#', '?'])
    D.nfkc n = n ∨ ['/', '?', '#', '@', ':'].all (· ∉ D.nfkc n) = true

/-- `urlsplit` -/
def urlsplit (D : CharData) (url : List Char) : Except UrlError SplitUrl :=
  let url := (url.dropWhile (·.toNat ≤ 0x20)).filter (· ∉ ['\t', '\r', '\n'])
  let (scheme, rest) := splitScheme D url
  let netloc :=
    if ['/', '/'].isPrefixOf rest then (rest.drop 2).takeWhile (· ∉ ['/', '?', '#']) else []
  if ¬ ('[' ∈ netloc ↔ ']' ∈ netloc) then .error .unbalancedBrackets
  else if '[' ∈ netloc ∧ ¬ checkBracketedHost (partitionBefore ']' (partitionAfter '[' netloc)) then
    .error .bracketedHost
  else if ¬ checkNetloc D netloc then .error .normalization
  else .ok ⟨scheme, netloc⟩

/-! ### The host name -/

/-- `_hostinfo[0]` -/
def SplitUrl.host (u : SplitUrl) : List Char :=
  let hostinfo := rpartitionAfter '@' u.netloc
  if '[' ∈ hostinfo then partitionBefore ']' (partitionAfter '[' hostinfo)
  else partitionBefore ':' hostinfo

/-- In lower case, but for a scope id. -/
def lowerHost (D : CharData) (host : List Char) : List Char :=
  D.lower (host.takeWhile (· ≠ '%')) ++ host.dropWhile (· ≠ '%')

@[simp] theorem lowerHost_nil (D : CharData) : lowerHost D [] = [] := by simp [lowerHost]

/-- `hostname` -/
def SplitUrl.hostname (D : CharData) (u : SplitUrl) : Option (List Char) :=
  if u.host = [] then none else some (lowerHost D u.host)

/-! ### What is in lower case -/

section LowerCase

variable {D : CharData} {u : SplitUrl}

theorem small_of_isDigit {c : Char} (h : c.isDigit = true) :
    c.toNat < 128 ∧ c.isLower = false := by
  simp only [Char.isDigit, ge_iff_le, Bool.and_eq_true, decide_eq_true_eq,
    UInt32.le_iff_toNat_le] at h
  have hle : c.toNat ≤ 57 := h.2
  refine ⟨by omega, Bool.eq_false_iff.mpr fun hlower => ?_⟩
  have hge : 97 ≤ c.toNat := of_decide_eq_true (Bool.and_eq_true_iff.mp hlower).1
  omega

theorem small_of_isSchemeChar {c : Char} (h : isSchemeChar c = true) : c.toNat < 128 := by
  have hcases : (c.isUpper || c.isLower || c.isDigit || c == '+' || c == '-' || c == '.') = true :=
    h
  simp only [Bool.or_eq_true] at hcases
  rcases hcases with ((((hupper | hlower) | hdigit) | hplus) | hminus) | hdot
  · have hle : c.toNat ≤ 90 := (of_decide_eq_true hupper).2
    omega
  · have hle : c.toNat ≤ 122 := of_decide_eq_true (Bool.and_eq_true_iff.mp hlower).2
    omega
  · exact (small_of_isDigit hdigit).1
  · rw [eq_of_beq hplus]
    decide
  · rw [eq_of_beq hminus]
    decide
  · rw [eq_of_beq hdot]
    decide

/-- The scheme is in lower case. -/
theorem lower_scheme {url : List Char} (h : urlsplit D url = .ok u) :
    D.lower u.scheme = u.scheme := by
  have hscheme : ∀ text : List Char, D.lower (splitScheme D text).1 = (splitScheme D text).1 := by
    intro text
    unfold splitScheme
    dsimp only
    split_ifs with hvalid
    · have hascii : ∀ c ∈ partitionBefore ':' text, c.toNat < 128 := fun c hc =>
        small_of_isSchemeChar (List.all_eq_true.mp hvalid.2.2 c hc)
      have hsmall : ∀ n : Fin 128, (Char.ofNat n).toLower.toNat < 128 ∧
          (Char.ofNat n).toLower.toLower = (Char.ofNat n).toLower := by decide +kernel
      have hidem : ∀ c ∈ partitionBefore ':' text, c.toLower.toNat < 128 ∧
          c.toLower.toLower = c.toLower := by
        intro c hc
        have hn := hsmall ⟨c.toNat, hascii c hc⟩
        rwa [Char.ofNat_toNat] at hn
      rw [CharData.lower_of_ascii hascii, CharData.lower_of_ascii, List.map_map]
      · exact List.map_congr_left fun c hc => (hidem c hc).2
      · intro c hc
        obtain ⟨d, hd, rfl⟩ := List.mem_map.mp hc
        exact (hidem d hd).1
    · exact CharData.lower_nil
  unfold urlsplit at h
  dsimp only at h
  split_ifs at h <;> rw [← Except.ok.inj h] <;> exact hscheme _

/-- A host name is not empty. -/
theorem hostname_ne_nil {host : List Char} (h : u.hostname D = some host) : host ≠ [] := by
  unfold SplitUrl.hostname at h
  split_ifs at h with hne
  rw [← Option.some.inj h]
  unfold lowerHost
  intro hnil
  obtain ⟨hlower, hscope⟩ := List.append_eq_nil_iff.mp hnil
  have haddress : u.host.takeWhile (· ≠ '%') = [] := by
    by_contra hsome
    exact CharData.lower_ne_nil hsome hlower
  apply hne
  rw [← List.takeWhile_append_dropWhile (p := (· ≠ '%')) (l := u.host), haddress, hscope]
  rfl

end LowerCase

section Plain

variable {D : CharData} {u : SplitUrl}

/-- **Without user-info and brackets**, the host is the text before the first colon. -/
theorem host_of_plain (hat : '@' ∉ u.netloc) (hbracket : '[' ∉ u.netloc) :
    u.host = partitionBefore ':' u.netloc := by
  have hinfo : rpartitionAfter '@' u.netloc = u.netloc := by
    refine List.rtakeWhile_eq_self_iff.mpr fun c hc => ?_
    have hne : c ≠ '@' := by
      rintro rfl
      exact hat hc
    simpa using hne
  unfold SplitUrl.host
  rw [hinfo, if_neg hbracket]

/-- A host name in lower case that is an IPv4 address was written so. -/
theorem eq_of_parseV4_lowerHost {host : List Char} {ip : BitVec 32}
    (h : IpAddress.parseV4 (lowerHost D host) = some ip) : lowerHost D host = host := by
  have hchars := IpAddress.v4_chars h
  have hlower : D.lower (host.takeWhile (· ≠ '%')) = host.takeWhile (· ≠ '%') := by
    refine CharData.lower_eq_self fun d hd => ?_
    rcases hchars d (List.mem_append_left _ hd) with hdigit | rfl
    · exact small_of_isDigit hdigit
    · exact ⟨by decide, by decide⟩
  unfold lowerHost
  rw [hlower, List.takeWhile_append_dropWhile]

/-- A host name in lower case that is an IPv6 address was written with a colon. -/
theorem colon_of_parseV6_lowerHost {host : List Char} {ip : BitVec 128}
    (h : IpAddress.parseV6 (lowerHost D host) = some ip) : ':' ∈ host := by
  have hcolon := IpAddress.colon_of_parseV6 h
  have hmem : ':' ∈ D.lower (host.takeWhile (· ≠ '%')) := by
    -- the scope id begins with the sign that ends the address
    have hscope : (host.dropWhile (· ≠ '%')).takeWhile (· ≠ '%') = [] :=
      List.takeWhile_eq_nil_iff.mpr fun hlen => by
        simpa using List.dropWhile_get_zero_not (· ≠ '%') host hlen
    rw [lowerHost, List.takeWhile_append, hscope, List.append_nil] at hcolon
    split_ifs at hcolon
    · exact hcolon
    · exact (List.takeWhile_sublist _).subset hcolon
  have htext := CharData.mem_of_mem_lower hmem (by decide) (by decide)
  exact (List.takeWhile_sublist _).subset htext

end Plain
