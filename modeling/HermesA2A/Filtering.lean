import HermesA2A.Security
import HermesA2A.Lib.RegexCopy

/-!
# The filters leave nothing behind

Both filters run their patterns one after the other and each of them once.  Here it is
shown that once is enough.

* `sanitizeInbound_leaves_nothing`: a sanitised message, for any length limit, contains no
  match of an injection pattern.
* `filterOutbound_complete`: a filtered response contains no match of a sensitive pattern,
  and filtering it again changes nothing.

The replacements `[FILTERED]` and `[REDACTED]` are what makes both true: no word of a
pattern starts inside them, and what runs across them was a match before.
-/

namespace HermesA2A

open Regex

/-! ### Outbound -/

/-- **Redaction is complete and stable.** -/
theorem filterOutbound_complete (text : String) :
    (∀ p ∈ SENSITIVE_PATTERNS, ∀ w, w <:+: (filterOutbound text).toList → p.search w = false) ∧
      filterOutbound (filterOutbound text) = filterOutbound text := by
  refine ⟨fun p hp w hw => ?_, filterOutbound_filterOutbound text⟩
  rw [Pattern.search_eq_false_iff (redactable_sensitive p hp).plain]
  refine Free.of_infix ?_ hw
  rw [filterOutbound, String.toList_ofList]
  refine Free.of_infix ?_ (Text.strip_infix _)
  exact free_redactAll (redactable_sensitive p hp) redactable_sensitive (Or.inl hp)

/-! ### Inbound, for any limit -/

/-- What a removed injection is replaced by. -/
def filtered : List Char := "[FILTERED]".toList

/-- The stop of the slice `text[:stop]`, from the end if negative. -/
def sliceStop (stop : ℤ) (length : ℕ) : ℕ :=
  if stop < 0 then (length + stop).toNat else stop.toNat

/-- `truncate` for a limit of any sign. -/
def truncateWithin (maxLength : ℤ) (text : List Char) : List Char :=
  if (text.length : ℤ) > maxLength then
    text.take (sliceStop maxLength text.length) ++
      "\n[... message truncated for safety]".toList
  else text

/-- One round of the loop over `INJECTION_PATTERNS`. -/
def filterStep (text : List Char) (p : Pattern) : List Char :=
  if p.search text then p.sub filtered text else text

/-- `sanitize_inbound(text, max_length)` -/
def sanitizeInboundWithin (maxLength : ℤ) (text : String) : String :=
  String.ofList (INJECTION_PATTERNS.foldl filterStep (truncateWithin maxLength text.toList))

/-- The messages of the server are sanitised with the default limit. -/
theorem sanitizeInbound_eq (text : String) :
    sanitizeInbound text = sanitizeInboundWithin 50000 text := by
  have htruncate : truncate 50000 text.toList = truncateWithin 50000 text.toList := by
    have hlength : (50000 : ℤ) < text.toList.length ↔ 50000 < text.toList.length := by omega
    simp only [truncate, truncateWithin, sliceStop, gt_iff_lt, hlength]
    rfl
  rw [sanitizeInbound, htruncate]
  rfl

/-! ### Every injection pattern is inert -/

theorem lang_seq_cons {r : Regex} {rs : List Regex} {prev : Option Char} {w : List Char} :
    (seq (r :: rs)).Lang prev w ↔ (cat r (seq rs)).Lang prev w := by
  cases rs with
  | nil => simp [seq, Lang]
  | cons s rs => rfl

theorem lang_seq_append {rs ss : List Regex} : ∀ {prev : Option Char} {w : List Char},
    (seq (rs ++ ss)).Lang prev w ↔
      ∃ u v, w = u ++ v ∧ (seq rs).Lang prev u ∧ (seq ss).Lang (lastOr prev u) v := by
  induction rs with
  | nil =>
      intro prev w
      simp [seq, Lang, lastOr]
  | cons r rs ih =>
      intro prev w
      have hlast : ∀ u u' : List Char,
          lastOr prev (u ++ u') = lastOr (lastOr prev u) u' := by
        intro u u'
        simp [lastOr, List.getLast?_append, Option.or_assoc]
      rw [List.cons_append, lang_seq_cons]
      constructor
      · rintro ⟨u, _, rfl, hu, hrest⟩
        obtain ⟨u', v, rfl, hu', hv⟩ := ih.mp hrest
        exact ⟨u ++ u', v, by simp, lang_seq_cons.mpr ⟨u, u', rfl, hu, hu'⟩, hlast u u' ▸ hv⟩
      · rintro ⟨_, v, rfl, hrs, hv⟩
        obtain ⟨u, u', rfl, hu, hu'⟩ := lang_seq_cons.mp hrs
        exact ⟨u, u' ++ v, by simp, hu, ih.mpr ⟨u', v, rfl, hu', hlast u u' ▸ hv⟩⟩

/-- A sequence with `.*?` in it, under `re.DOTALL`, is an expression with a gap. -/
theorem gap_seq (rs : List Regex) {ss : List Regex} (hss : (seq ss).plain = true) :
    Gap (seq (rs ++ manyLazy anyChar :: ss)) (seq rs) (seq ss) := by
  intro w
  rw [lang_seq_append]
  constructor
  · rintro ⟨u, _, rfl, hu, hrest⟩
    obtain ⟨g, v, rfl, -, hv⟩ := lang_seq_cons.mp hrest
    exact ⟨u, g, v, by simp, hu, lang_congr hss hv⟩
  · rintro ⟨u, g, v, rfl, hu, hv⟩
    exact ⟨u, g ++ v, by simp, hu, lang_seq_cons.mpr ⟨g, v, rfl, fun _ _ => rfl, lang_congr hss hv⟩⟩

/-- An expression without brackets lies outside `[FILTERED]`. -/
theorem solid_of_avoids {a : Regex} (hplain : a.plain = true) (hnull : a.nullable = false)
    (havoids : a.avoids '[' = true) (hdies : ∀ s ∈ filtered.tails, s ≠ [] → a.dies s = true) :
    a.Solid '[' "FILTERED]".toList where
  plain := hplain
  consumes := hnull
  tail := fun _ hw hmem => notMem_of_avoids havoids hw (List.mem_of_mem_tail hmem)
  dies := fun s hne hs => hdies s ((List.mem_tails _ _).mpr hs) hne

/-- A tag in brackets is not `[FILTERED]`. -/
theorem solid_tag {p : Char → Bool} {a : Regex} (hplain : a.plain = true)
    (havoids : a.avoids '[' = true)
    (hdies : ∀ s ∈ filtered.tails, s ≠ [] → (cat (chr p) a).dies s = true) :
    (cat (chr p) a).Solid '[' "FILTERED]".toList where
  plain := by simpa [plain] using hplain
  consumes := rfl
  tail := by
    rintro _ ⟨_, v, rfl, ⟨c, -, rfl⟩, hv⟩ hmem
    exact notMem_of_avoids havoids hv hmem
  dies := fun s hne hs => hdies s ((List.mem_tails _ _).mpr hs) hne

theorem inert_of_avoids {a : Regex} (hplain : a.plain = true) (hnull : a.nullable = false)
    (havoids : a.avoids '[' = true) (hdies : ∀ s ∈ filtered.tails, s ≠ [] → a.dies s = true) :
    a.Inert filtered :=
  Inert.of_cut hplain hnull (Cut.of_avoids havoids) fun s hne hs =>
    hdies s ((List.mem_tails _ _).mpr hs) hne

/-- The patterns but the last, which is anchored at line starts. -/
theorem inert_injection : ∀ p ∈ INJECTION_PATTERNS.dropLast,
    p.regex.plain = true ∧ p.regex.Inert filtered := by
  intro p hp
  simp only [INJECTION_PATTERNS, List.dropLast_cons_cons, List.dropLast_singleton, List.mem_cons,
    List.not_mem_nil, or_false] at hp
  rcases hp with rfl | rfl | rfl | rfl | rfl | rfl | rfl | rfl
  · refine ⟨by decide, Inert.of_gap
      (gap_seq [lit "<", many space, litI "system", many space, lit ">"] (by decide)) ?_ ?_⟩
    · exact solid_of_avoids (by decide) (by decide) (by decide) (by decide)
    · exact solid_of_avoids (by decide) (by decide) (by decide) (by decide)
  · refine ⟨by decide, Inert.of_gap (gap_seq [litI "[inst]"] (by decide)) ?_ ?_⟩
    · exact solid_tag (by decide) (by decide) (by decide)
    · exact solid_tag (by decide) (by decide) (by decide)
  all_goals exact ⟨by decide, inert_of_avoids (by decide) (by decide) (by decide) (by decide)⟩

/-! ### Nothing is left -/

/-- A pattern of the list, once run, finds nothing, and neither does one that had no match. -/
theorem free_foldl_filterStep {q : Pattern} (hplain : q.regex.plain = true)
    (hinert : q.regex.Inert filtered) :
    ∀ {patterns : List Pattern} {t : List Char}, q ∈ patterns ∨ q.regex.Free t →
      q.regex.Free (patterns.foldl filterStep t) := by
  intro patterns
  induction patterns with
  | nil => rintro t (h | h); exacts [absurd h List.not_mem_nil, h]
  | cons p patterns ih =>
      intro t h
      refine ih ?_
      have hself : q.regex.Free (filterStep t q) := by
        unfold filterStep
        split
        · exact Pattern.free_sub_self_of_inert hplain hinert t
        · rename_i hsearch
          exact (Pattern.search_eq_false_iff hplain).mp (by simpa using hsearch)
      have hother : q.regex.Free t → q.regex.Free (filterStep t p) := by
        intro hfree
        unfold filterStep
        split
        · exact Pattern.free_sub_of_inert hinert hfree
        · exact hfree
      rcases h with h | h
      · rcases List.mem_cons.mp h with rfl | h
        · exact Or.inr hself
        · exact Or.inl h
      · exact Or.inr (hother h)

/-- The last pattern, `^(Human|Assistant|System)\s*:`. -/
theorem search_filterStep_line (t : List Char) {p : Pattern}
    (hp : INJECTION_PATTERNS.getLast? = some p) : p.search (filterStep t p) = false := by
  obtain rfl := Option.some.inj hp
  unfold filterStep
  split
  · refine Pattern.search_sub_self_of_line rfl ?_ (by decide) t
    exact solid_of_avoids (by decide) (by decide) (by decide) (by decide)
  · rename_i hsearch
    simpa using hsearch

/-- **A sanitised message contains no match of an injection pattern.** -/
theorem sanitizeInbound_leaves_nothing (maxLength : ℤ) (text : String) :
    ∀ p ∈ INJECTION_PATTERNS, p.search (sanitizeInboundWithin maxLength text).toList = false := by
  intro p hp
  rw [sanitizeInboundWithin, String.toList_ofList]
  obtain ⟨last, hlast⟩ : ∃ p, INJECTION_PATTERNS.getLast? = some p :=
    Option.isSome_iff_exists.mp rfl
  have hlist : INJECTION_PATTERNS.dropLast ++ [last] = INJECTION_PATTERNS :=
    List.dropLast_append_getLast? last hlast
  rw [← hlist] at hp
  rcases List.mem_append.mp hp with hp | hp
  · obtain ⟨hplain, hinert⟩ := inert_injection p hp
    rw [Pattern.search_eq_false_iff hplain]
    exact free_foldl_filterStep hplain hinert (Or.inl (List.dropLast_subset _ hp))
  · obtain rfl := List.mem_singleton.mp hp
    rw [← hlist, List.foldl_append, List.foldl_cons, List.foldl_nil]
    exact search_filterStep_line _ hlast

/-- The third pattern, and a message that is a match of it. -/
theorem sanitizeInbound_leaves_nothing_ignore :
    (INJECTION_PATTERNS.get ⟨2, by decide⟩).search
      (sanitizeInboundWithin 100 "ignore previous instructions").toList = false :=
  sanitizeInbound_leaves_nothing 100 "ignore previous instructions" _ (List.get_mem _ _)

end HermesA2A
