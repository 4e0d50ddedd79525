import HermesA2A.Lib.Regex
import HermesA2A.Lib.Text

/-!
# Message text filters

`sanitizeInbound` is applied to the text of every accepted message,
`filterOutbound` to every response on its way out.  Both run a fixed list of
patterns over the text, one after the other.

The patterns are the source's, letter for letter, with `(?i)` read as Python
reads it on texts: a letter stands for both its cases, and `i`, `k`, `s` also
for the non-ASCII characters whose case folds to them.

A response is filtered more than once on its way to a client.
`filterOutbound_filterOutbound` says this makes no difference: the replacement
`[REDACTED]` neither is, nor begins, nor completes anything a pattern redacts.
-/

namespace HermesA2A

open Regex

/-! ### Pattern vocabulary -/

/-- The characters `(?i)c` matches, for `c` not an upper-case letter. -/
def anyCase (c d : Char) : Bool :=
  d == c || d == c.toUpper || (c == 'i' && (d == 'İ' || d == 'ı')) ||
    (c == 'k' && d == '\u212a') || (c == 's' && d == 'ſ')

/-- A literal text. -/
def lit (s : String) : Regex := s.toList.foldr (fun c r => cat (chr (· == c)) r) eps

/-- A literal text under `(?i)`. -/
def litI (s : String) : Regex := s.toList.foldr (fun c r => cat (chr (anyCase c)) r) eps

/-- `\s` -/
def space : Char → Bool := Text.isSpace

/-- `\S` -/
def nonSpace (c : Char) : Bool := !Text.isSpace c

/-- `[a-zA-Z0-9]` under `(?i)`. -/
def alnumI (c : Char) : Bool :=
  c.isAlphanum || c == 'İ' || c == 'ı' || c == '\u212a' || c == 'ſ'

/-- `.` under `re.DOTALL`. -/
def anyChar (_ : Char) : Bool := true

/-- One of several expressions, the first preferred. -/
def oneOf : List Regex → Regex
  | [] => void
  | [r] => r
  | r :: rs => alt r (oneOf rs)

/-- One expression after the other. -/
def seq : List Regex → Regex
  | [] => eps
  | [r] => r
  | r :: rs => cat r (seq rs)

/-! ### Inbound -/

/-- `INJECTION_PATTERNS` -/
def INJECTION_PATTERNS : List Pattern :=
  [ { regex := seq [lit "<", many space, litI "system", many space, lit ">", manyLazy anyChar,
        lit "<", many space, lit "/", many space, litI "system", many space, lit ">"] },
    { regex := seq [litI "[inst]", manyLazy anyChar, litI "[/inst]"] },
    { regex := seq [litI "ignore", plus space, opt (cat (litI "all") (plus space)),
        litI "previous", plus space, litI "instruction", opt (litI "s")] },
    { regex := seq [litI "you", plus space, litI "are", plus space, litI "now", plus space] },
    { regex := seq [litI "new", plus space, litI "system", plus space, litI "prompt"] },
    { regex := seq [litI "disregard", plus space, opt (cat (litI "all") (plus space)),
        oneOf [litI "prior", litI "earlier", litI "above"]] },
    { regex := seq [litI "override", plus space, opt (cat (litI "your") (plus space)),
        oneOf [cat (litI "instruction") (opt (litI "s")), cat (litI "rule") (opt (litI "s")),
          cat (litI "guideline") (opt (litI "s"))]] },
    { regex := seq [lit "<|im_", oneOf [lit "start", lit "end"], lit "|>"] },
    { regex := seq [lineStart, oneOf [lit "Human", lit "Assistant", lit "System"], many space,
        lit ":"] } ]

/-- Cut an over-long text and mark the cut. -/
def truncate (maxLength : ℕ) (text : List Char) : List Char :=
  if text.length > maxLength then
    text.take maxLength ++ "\n[... message truncated for safety]".toList
  else text

/-- `sanitize_inbound`, with the source's default limit. -/
def sanitizeInbound (text : String) : String :=
  String.ofList <|
    INJECTION_PATTERNS.foldl
      (fun t p => if p.search t then p.sub "[FILTERED]".toList t else t)
      (truncate 50000 text.toList)

/-! ### Outbound -/

/-- `SENSITIVE_PATTERNS` -/
def SENSITIVE_PATTERNS : List Pattern :=
  [ { regex := seq [oneOf [seq [litI "api", opt (chr fun c => c == '_' || c == '-'), litI "key"],
          litI "secret", litI "password", litI "token", litI "credential"],
        many space, chr (fun c => c == ':' || c == '='), many space, plus nonSpace] },
    { regex := seq [litI "sk-", atLeast 20 alnumI] },
    { regex := seq [litI "ghp_", atLeast 20 alnumI] },
    { regex := seq [litI "xoxb-", plus fun c => alnumI c || c == '-'] } ]

/-- What a redacted secret is replaced by. -/
def redaction : List Char := "[REDACTED]".toList

/-- Run patterns over a text, one after the other. -/
def redactAll (patterns : List Pattern) (text : List Char) : List Char :=
  patterns.foldl (fun t p => p.sub redaction t) text

/-- `filter_outbound` -/
def filterOutbound (text : String) : String :=
  String.ofList (Text.strip (redactAll SENSITIVE_PATTERNS text.toList))

/-! ### Redaction is stable -/

/-- What makes substituting `[REDACTED]` for a pattern's matches final: its words
start and may end in a non-space, and no word starts inside `[REDACTED]`. -/
structure Redactable (p : Pattern) : Prop where
  plain : p.regex.plain = true
  cut : p.regex.Cut '[' fun c => nonSpace c = true
  heads : p.regex.Heads fun c => nonSpace c = true
  dies : ∀ s ∈ redaction.tails, s ≠ [] → p.regex.dies s = true

theorem Redactable.free_sub_self {p : Pattern} (hp : Redactable p) (t : List Char) :
    p.regex.Free (p.sub redaction t) :=
  Pattern.free_sub_self hp.plain hp.cut hp.heads
    (fun s hne hs => hp.dies s ((List.mem_tails _ _).mpr hs) hne) t

theorem Redactable.free_sub {p q : Pattern} (hp : Redactable p) (hq : Redactable q)
    {t : List Char} (hfree : q.regex.Free t) : q.regex.Free (p.sub redaction t) :=
  Pattern.free_sub_of_free hq.plain hq.cut hp.heads
    (fun s hne hs => hq.dies s ((List.mem_tails _ _).mpr hs) hne) hfree

/-- The patterns already run find nothing more, whatever is run after them. -/
theorem free_redactAll {q : Pattern} (hq : Redactable q) :
    ∀ {patterns : List Pattern}, (∀ p ∈ patterns, Redactable p) → ∀ {t : List Char},
      q ∈ patterns ∨ q.regex.Free t → q.regex.Free (redactAll patterns t) := by
  intro patterns
  induction patterns with
  | nil => rintro - t (h | h); exacts [absurd h List.not_mem_nil, h]
  | cons p patterns ih =>
      intro hall t h
      have hp : Redactable p := hall p List.mem_cons_self
      refine ih (fun r hr => hall r (List.mem_cons_of_mem p hr)) (t := p.sub redaction t) ?_
      rcases h with h | h
      · rcases List.mem_cons.mp h with rfl | h
        · exact Or.inr (hp.free_sub_self t)
        · exact Or.inl h
      · exact Or.inr (hp.free_sub hq h)

/-- A text free of all patterns is left alone. -/
theorem redactAll_eq_self :
    ∀ {patterns : List Pattern}, (∀ p ∈ patterns, Redactable p) → ∀ {t : List Char},
      (∀ p ∈ patterns, p.regex.Free t) → redactAll patterns t = t := by
  intro patterns
  induction patterns with
  | nil => intro _ t _; rfl
  | cons p patterns ih =>
      intro hall t hfree
      have hp : Redactable p := hall p List.mem_cons_self
      show redactAll patterns (p.sub redaction t) = t
      rw [Pattern.sub_eq_self hp.plain (hfree p List.mem_cons_self)]
      exact ih (fun r hr => hall r (List.mem_cons_of_mem p hr))
        fun r hr => hfree r (List.mem_cons_of_mem p hr)

/-- A literal that starts with a letter of the patterns starts with a non-space. -/
theorem heads_litI {c : Char} (hc : c ∈ ['a', 's', 'p', 't', 'c', 'g', 'x']) (r : Regex) :
    (cat (chr (anyCase c)) r).Heads fun d => nonSpace d = true := by
  refine Heads.cat rfl (Heads.chr fun d hd => ?_)
  simp only [List.mem_cons, List.not_mem_nil, or_false] at hc
  rcases hc with rfl | rfl | rfl | rfl | rfl | rfl | rfl <;>
    · simp [anyCase, or_assoc] at hd
      rcases hd with rfl | rfl | rfl <;> decide

theorem redactable_sensitive : ∀ p ∈ SENSITIVE_PATTERNS, Redactable p := by
  intro p hp
  simp only [SENSITIVE_PATTERNS, List.mem_cons, List.not_mem_nil, or_false] at hp
  rcases hp with rfl | rfl | rfl | rfl
  · exact
      { plain := by decide
        -- only the final `\S+` can contain a bracket
        cut := Cut.cat (by decide) <| Cut.cat (by decide) <| Cut.cat (by decide) <|
          Cut.cat (by decide) <| Cut.plus fun _ h => h
        heads := Heads.cat (by decide) <|
          Heads.alt (Heads.cat (by decide) (heads_litI (by decide) _)) <|
          Heads.alt (heads_litI (by decide) _) <| Heads.alt (heads_litI (by decide) _) <|
          Heads.alt (heads_litI (by decide) _) (heads_litI (by decide) _)
        dies := by decide }
  · exact
      { plain := by decide
        cut := Cut.of_avoids (by decide)
        heads := Heads.cat (by decide) (heads_litI (by decide) _)
        dies := by decide }
  · exact
      { plain := by decide
        cut := Cut.of_avoids (by decide)
        heads := Heads.cat (by decide) (heads_litI (by decide) _)
        dies := by decide }
  · exact
      { plain := by decide
        cut := Cut.of_avoids (by decide)
        heads := Heads.cat (by decide) (heads_litI (by decide) _)
        dies := by decide }

/-- A filtered text is stripped. -/
theorem stripped_filterOutbound (text : String) : (filterOutbound text).Stripped := by
  rw [String.Stripped, filterOutbound, String.toList_ofList]
  exact Text.stripped_strip _

/-- **Filtering twice is filtering once.** -/
theorem filterOutbound_filterOutbound (text : String) :
    filterOutbound (filterOutbound text) = filterOutbound text := by
  have hfree : ∀ p ∈ SENSITIVE_PATTERNS, p.regex.Free (filterOutbound text).toList := by
    intro p hp
    rw [filterOutbound, String.toList_ofList]
    refine Free.of_infix ?_ (Text.strip_infix _)
    exact free_redactAll (redactable_sensitive p hp) redactable_sensitive (Or.inl hp)
  conv_lhs => rw [filterOutbound]
  rw [redactAll_eq_self redactable_sensitive hfree,
    Text.strip_eq_self (stripped_filterOutbound text), String.ofList_toList]

end HermesA2A
