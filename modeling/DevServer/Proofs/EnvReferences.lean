import DevServer.Proofs.DependencyEnv

set_option autoImplicit false

namespace DevServer.Env

open Text

def referenceStart : Text := "process.env."

def keyStart : Text := ".env."

def referenceMeaning (key : Text) : Text :=
  if key = "NODE_ENV" then "\"development\""
  else if key = "BROWSER" then "true"
  else "\x7b\x7d.env." ++ key

-- No mark begins in a key, with what follows it, that is not the key itself.
def KeyIntact (key after : Text) : Prop :=
  ¬ ("NODE_ENV" : Text) <+: key ∧ ¬ ("BROWSER" : Text) <+: key ∧ ¬ HasWord "process" key ∧
    ¬ (("process" : Text) <:+ key ∧ ((".env.NODE_ENV" : Text) <+: after ∨ (".env.BROWSER" : Text) <+: after))

section Places

theorem reference_first (front key rest : Text) (single : '.' ∉ key)
    (same : front ++ (referenceStart ++ rest) = referenceStart ++ key) : front = [] ∧ rest = key := by
  rw [← List.append_assoc] at same
  rcases List.append_eq_append_iff.mp same with ⟨gap, whole, behind⟩ | ⟨gap, whole, behind⟩
  · have lengths := congrArg List.length whole
    rw [List.length_append, List.length_append] at lengths
    obtain rfl := List.length_eq_zero_iff.mp (show gap.length = 0 by omega)
    exact ⟨List.length_eq_zero_iff.mp (by omega), behind⟩
  · rcases List.eq_nil_or_concat gap with rfl | ⟨gap, c, rfl⟩
    · rw [List.append_nil] at whole
      exact ⟨List.append_left_eq_self.mp whole, behind.symm⟩
    · have last := congrArg List.getLast? whole
      rw [List.concat_eq_append] at last behind
      rw [List.getLast?_append_of_ne_nil front (by decide), ← List.append_assoc, List.getLast?_concat] at last
      obtain rfl : '.' = c := Option.some.inj last
      exact absurd (by simp [behind]) single

variable {name : Text}

theorem reference_inside (key : Text) (single : '.' ∉ key) :
    referenceStart ++ name <:+: referenceStart ++ key ↔ name <+: key := by
  constructor
  · rintro ⟨front, back, same⟩
    rw [List.append_assoc, List.append_assoc] at same
    exact ⟨back, (reference_first front key (name ++ back) single same).2⟩
  · rintro ⟨rest, rfl⟩
    exact ⟨[], rest, List.append_assoc _ _ _⟩

theorem key_straddled (key after : Text) (single : '.' ∉ key) (ends : after.head?.any isWord = false) :
    Straddles (referenceStart ++ name) key after ↔ processWord <:+ key ∧ keyStart ++ name <+: after := by
  constructor
  · rintro ⟨front, back, some', behind, whole, last, next⟩
    have cut : processWord ++ (keyStart ++ name) = front ++ back := whole
    rcases List.append_eq_append_iff.mp cut with ⟨gap, rfl, rest⟩ | ⟨gap, inside, rfl⟩
    · cases gap with
      | nil => exact ⟨List.append_nil processWord ▸ last, rest ▸ next⟩
      | cons c gap =>
          obtain rfl : '.' = c := (List.cons.inj rest).1
          exact absurd (last.subset (by simp)) single
    · cases gap with
      | nil => exact ⟨by rwa [inside, List.append_nil], next⟩
      | cons c gap =>
          have word : isWord c = true := List.all_eq_true.mp process_solid c (inside ▸ by simp)
          obtain ⟨more, rfl⟩ := next
          exact absurd (word.symm.trans ends) (by decide)
  · rintro ⟨last, next⟩
    have behind : keyStart ++ name ≠ [] := List.append_ne_nil_of_left_ne_nil (by decide) name
    exact ⟨processWord, keyStart ++ name, process_some, behind, rfl, last, next⟩

-- A mark that goes over the end of a reference begins in the key: it would begin the reference else, and what is
-- behind the key of a mark goes on with its name.
theorem reference_unstraddled (solid : name.all isWord = true) (key after : Text)
    (ends : after.head?.any isWord = false) (apart : ¬ Straddles (referenceStart ++ name) key after) :
    ¬ Straddles (referenceStart ++ name) (referenceStart ++ key) after := by
  rintro ⟨front, back, some', behind, whole, last, next⟩
  rcases suffix_places front referenceStart key last with inside | ⟨rest, rfl, begun, other, cut⟩
  · exact apart ⟨front, back, some', behind, whole, inside, next⟩
  · obtain ⟨c, rest, rfl⟩ := List.exists_cons_of_ne_nil begun
    obtain rfl : 'p' = c := (List.cons.inj whole).1
    cases other with
    | cons d other =>
        have member : 'p' ∈ referenceStart.tail := by
          rw [← cut]
          simp
        exact absurd member (by decide)
    | nil =>
        rw [List.nil_append] at cut
        rw [cut, List.append_assoc] at whole
        rw [List.append_cancel_left whole, List.all_append, Bool.and_eq_true] at solid
        obtain ⟨more, rfl⟩ := next
        rw [List.head?_append_of_ne_nil _ behind, (word_ends behind solid.2).1] at ends
        cases ends

end Places

section Passes

variable {name new : Text} (solid : name.all isWord = true) (proper : 'p' ∉ name)

include proper in
theorem reference_apart (before rest : Text) :
    ¬ Straddles (referenceStart ++ name) before (referenceStart ++ rest) := by
  refine unstraddled_head _ before _ fun c first member => ?_
  obtain rfl : 'p' = c := Option.some.inj first
  rcases List.mem_append.mp (show 'p' ∈ referenceStart.tail ++ name from member) with inside | inside
  · exact absurd inside (by decide)
  · exact proper inside

include proper in
theorem reference_put (before rest : Text) :
    replace (before ++ (referenceStart ++ (name ++ rest))) (referenceStart ++ name) new =
      replace before (referenceStart ++ name) new ++ (new ++ replace rest (referenceStart ++ name) new) := by
  have some' : referenceStart ++ name ≠ [] := List.append_ne_nil_of_left_ne_nil (by decide) name
  rw [replaced_cut some' before _ (reference_apart proper before _), ← List.append_assoc referenceStart,
    replaced_found some']

include solid proper in
theorem reference_kept (before key after : Text) (single : '.' ∉ key) (ends : after.head?.any isWord = false)
    (other : ¬ name <+: key) (apart : ¬ Straddles (referenceStart ++ name) key after) :
    replace (before ++ (referenceStart ++ (key ++ after))) (referenceStart ++ name) new =
      replace before (referenceStart ++ name) new ++
        (referenceStart ++ (key ++ replace after (referenceStart ++ name) new)) := by
  have some' : referenceStart ++ name ≠ [] := List.append_ne_nil_of_left_ne_nil (by decide) name
  rw [replaced_cut some' before _ (reference_apart proper before _), ← List.append_assoc referenceStart,
    replaced_cut some' _ after (reference_unstraddled solid key after ends apart),
    replaced_same some' _ (mt (reference_inside key single).mp other), List.append_assoc]

end Passes

section References

theorem emptied_cut (left right : Text) (parted : left.getLast?.any isWord = false ∨ right.head?.any isWord = false) :
    emptyProcess (left ++ right) = emptyProcess left ++ emptyProcess right :=
  words_cut process_some process_solid _ left right parted

theorem emptied_head (text : Text) : text.head?.any isWord = false → (emptyProcess text).head? = text.head? :=
  fun other => (words_begin process_some process_solid _ none text other).2

theorem put_last (text : Text) (outside : text.getLast?.any isWord = false) :
    (putBrowser (putMode text)).getLast?.any isWord = false :=
  replaced_last browser_some (by decide) _ (replaced_last mode_some (by decide) text outside)

theorem put_head (text : Text) (ends : text.head?.any isWord = false) :
    (putBrowser (putMode text)).head?.any isWord = false :=
  replaced_head browser_some (by decide) _ (replaced_head mode_some (by decide) text ends)

theorem mode_mark : modeMark = referenceStart ++ "NODE_ENV" := rfl

theorem browser_mark : browserMark = referenceStart ++ "BROWSER" := rfl

theorem mode_reference (before rest : Text) :
    substituteDependency (before ++ (referenceStart ++ ("NODE_ENV" ++ rest))) =
      substituteDependency before ++ ("\"development\"" ++ substituteDependency rest) := by
  have first : putMode (before ++ (referenceStart ++ ("NODE_ENV" ++ rest))) =
      putMode before ++ ("\"development\"" ++ putMode rest) := by
    rw [putMode, putMode, putMode, mode_mark]
    exact reference_put (by decide) before rest
  have second (left right : Text) : putBrowser (left ++ ("\"development\"" ++ right)) =
      putBrowser left ++ ("\"development\"" ++ putBrowser right) := by
    have quoted : ∀ c ∈ (("\"development\"" : Text) ++ right).head?, c ∉ browserMark.tail := by
      intro c first
      obtain rfl : '"' = c := Option.some.inj first
      decide
    rw [putBrowser, replaced_cut browser_some left _ (unstraddled_head _ _ _ quoted),
      replaced_cut browser_some "\"development\"" right (unstraddled_apart _ _ _ (by decide)),
      replaced_same browser_some "\"development\"" (by decide)]
    rfl
  have third : emptyProcess "\"development\"" = "\"development\"" := by decide
  rw [substitutes, substitutes, substitutes, first, second, emptied_cut _ _ (.inr (by rfl)),
    emptied_cut "\"development\"" _ (.inl (by decide)), third]

theorem browser_put_reference (before rest : Text) :
    putBrowser (putMode (before ++ (referenceStart ++ ("BROWSER" ++ rest)))) =
      putBrowser (putMode before) ++ ("true" ++ putBrowser (putMode rest)) := by
  have apart : ¬ Straddles modeMark browserMark rest := unstraddled_apart _ _ _ (by decide)
  have first : putMode (before ++ (referenceStart ++ ("BROWSER" ++ rest))) =
      putMode before ++ (referenceStart ++ ("BROWSER" ++ putMode rest)) := by
    rw [putMode, mode_mark, replaced_cut (by decide) before _ (reference_apart (by decide) before _),
      ← List.append_assoc referenceStart, ← browser_mark, ← mode_mark, replaced_cut mode_some browserMark rest apart,
      replaced_same mode_some browserMark (by decide), browser_mark, List.append_assoc]
    rfl
  rw [first, putBrowser, putBrowser, putBrowser, browser_mark]
  exact reference_put (by decide) _ _

theorem emptied_front (front rest : Text) (absent : 'p' ∉ front) :
    ∃ more, emptyProcess (front ++ rest) = front ++ more := by
  refine ⟨_, rewritten_front process_some (words_marked "\x7b\x7d") front rest (fun c first => ?_) none⟩
  obtain rfl : 'p' = c := Option.some.inj first
  exact absent

theorem browser_reference (before rest : Text) (outside : before.getLast?.any isWord = false) :
    ∃ more, substituteDependency (before ++ (referenceStart ++ ("BROWSER" ++ rest))) =
        substituteDependency before ++ ("true" ++ more) ∧
      (rest.head?.any isWord = false → more = substituteDependency rest) := by
  obtain ⟨more, begun⟩ := emptied_front "true" (putBrowser (putMode rest)) (by decide)
  refine ⟨more, ?_, fun ends => ?_⟩
  · rw [substitutes, substitutes, browser_put_reference, emptied_cut _ _ (.inl (put_last before outside)), begun]
  · have cut := emptied_cut "true" _ (.inr (put_head rest ends))
    exact List.append_cancel_left (begun.symm.trans cut)

theorem key_kept (before key after : Text) (single : '.' ∉ key) (ends : after.head?.any isWord = false)
    (intact : KeyIntact key after) :
    putBrowser (putMode (before ++ (referenceStart ++ (key ++ after)))) =
      putBrowser (putMode before) ++ (referenceStart ++ (key ++ putBrowser (putMode after))) := by
  obtain ⟨mode, browser, _, apart⟩ := intact
  have first : putMode (before ++ (referenceStart ++ (key ++ after))) =
      putMode before ++ (referenceStart ++ (key ++ putMode after)) := by
    rw [putMode, putMode, putMode, mode_mark]
    refine reference_kept (by decide) (by decide) before key after single ends mode fun straddled => ?_
    obtain ⟨last, next⟩ := (key_straddled key after single ends).mp straddled
    exact apart ⟨last, .inl next⟩
  have ends' : (putMode after).head?.any isWord = false := replaced_head mode_some (by decide) after ends
  rw [first, putBrowser, putBrowser, putBrowser, browser_mark]
  refine reference_kept (by decide) (by decide) _ key _ single ends' browser fun straddled => ?_
  obtain ⟨last, next⟩ := (key_straddled key _ single ends').mp straddled
  exact apart ⟨last, .inr (replaced_begins mode_some (keyStart ++ "BROWSER") after (by decide) next)⟩

theorem key_emptied (left key right : Text) (outside : left.getLast?.any isWord = false)
    (ends : right.head?.any isWord = false) (unnamed : ¬ HasWord processWord key) :
    emptyProcess (left ++ (referenceStart ++ (key ++ right))) =
      emptyProcess left ++ ("\x7b\x7d.env." ++ (key ++ emptyProcess right)) := by
  have start : emptyProcess referenceStart = "\x7b\x7d.env." := by decide
  rw [emptied_cut left _ (.inl outside), emptied_cut referenceStart _ (.inl (by decide)),
    emptied_cut key right (.inr ends), process_same key unnamed, start]

theorem intact_reference (before key after : Text) (outside : before.getLast?.any isWord = false) (single : '.' ∉ key)
    (ends : after.head?.any isWord = false) (intact : KeyIntact key after) :
    substituteDependency (before ++ (referenceStart ++ (key ++ after))) =
      substituteDependency before ++ ("\x7b\x7d.env." ++ (key ++ substituteDependency after)) := by
  rw [substitutes, substitutes, substitutes, key_kept before key after single ends intact]
  exact key_emptied _ key _ (put_last before outside) (put_head after ends) intact.2.2.1

theorem substituted_front (front rest : Text) (absent : 'p' ∉ front) :
    ∃ more, substituteDependency (front ++ rest) = front ++ more := by
  have foreign (name : Text) : ∀ c ∈ (referenceStart ++ name).head?, c ∉ front := fun c first => by
    obtain rfl : 'p' = c := Option.some.inj first
    exact absent
  rw [substitutes, putMode, replaced_front mode_some front rest (foreign "NODE_ENV"), putBrowser,
    replaced_front browser_some front _ (foreign "BROWSER")]
  exact emptied_front front _ absent

theorem substituted_head (text : Text) (ends : text.head?.any isWord = false) :
    (substituteDependency text).head?.any isWord = false := by
  rw [substitutes, emptied_head _ (put_head text ends)]
  exact put_head text ends

theorem key_completes (name front key after : Text) (proper : 'p' ∉ name) (last : processWord <:+ key)
    (next : keyStart ++ name <+: after) : referenceStart ++ name <:+: front ++ (key ++ substituteDependency after) := by
  obtain ⟨begun, rfl⟩ := last
  obtain ⟨rest, rfl⟩ := next
  have absent : 'p' ∉ keyStart ++ name := fun member => (List.mem_append.mp member).elim (by decide) proper
  obtain ⟨more, stays⟩ := substituted_front (keyStart ++ name) rest absent
  refine ⟨front ++ begun, more, ?_⟩
  rw [stays]
  change front ++ begun ++ (processWord ++ keyStart ++ name) ++ more = _
  simp only [List.append_assoc]

theorem kept_key_unmarked (code front key after : Text) (outside : front.getLast?.any isWord = false)
    (ends : after.head?.any isWord = false)
    (kept : substituteDependency code = front ++ (key ++ substituteDependency after)) :
    ¬ HasWord processWord key ∧
      ¬ (processWord <:+ key ∧ ((".env.NODE_ENV" : Text) <+: after ∨ (".env.BROWSER" : Text) <+: after)) := by
  obtain ⟨unnamed, mode, browser⟩ := substituted_absent code
  rw [kept] at unnamed mode browser
  constructor
  · rintro ⟨begun, rest, rfl, apart, stops⟩
    refine unnamed ⟨front ++ begun, rest ++ substituteDependency after, by simp only [List.append_assoc], ?_, ?_⟩
    · rw [List.getLast?_append]
      cases final : begun.getLast? with
      | none => exact outside
      | some c => rwa [final] at apart
    · rw [List.head?_append]
      cases first : rest.head? with
      | none => exact substituted_head after ends
      | some c => rwa [first] at stops
  · rintro ⟨last, next | next⟩
    · exact mode (key_completes "NODE_ENV" front key after (by decide) last next)
    · exact browser (key_completes "BROWSER" front key after (by decide) last next)

theorem reference_substituted_iff (before key after : Text) (outside : before.getLast?.any isWord = false)
    (single : '.' ∉ key) (ends : after.head?.any isWord = false) :
    substituteDependency (before ++ ("process.env." ++ (key ++ after))) =
        substituteDependency before ++ (referenceMeaning key ++ substituteDependency after) ↔
      key = "NODE_ENV" ∨ key = "BROWSER" ∨ KeyIntact key after := by
  change substituteDependency (before ++ (referenceStart ++ (key ++ after))) = _ ↔ _
  by_cases mode : key = "NODE_ENV"
  · subst mode
    exact iff_of_true (mode_reference before after) (.inl rfl)
  by_cases browser : key = "BROWSER"
  · subst browser
    obtain ⟨more, put, same⟩ := browser_reference before after outside
    exact iff_of_true (same ends ▸ put) (.inr (.inl rfl))
  have meaning : referenceMeaning key = "\x7b\x7d.env." ++ key := by
    rw [referenceMeaning, if_neg mode, if_neg browser]
  rw [meaning, List.append_assoc]
  constructor
  · intro meant
    refine .inr (.inr ⟨?_, ?_, ?_⟩)
    · rintro ⟨rest, rfl⟩
      rw [List.append_assoc, mode_reference] at meant
      have first := congrArg List.head? (List.append_cancel_left meant)
      exact absurd (Option.some.inj first) (by decide)
    · rintro ⟨rest, rfl⟩
      obtain ⟨more, put, _⟩ := browser_reference before (rest ++ after) outside
      rw [List.append_assoc, put] at meant
      have first := congrArg List.head? (List.append_cancel_left meant)
      exact absurd (Option.some.inj first) (by decide)
    · rw [← List.append_assoc (substituteDependency before)] at meant
      refine kept_key_unmarked _ _ key after ?_ ends meant
      rw [List.getLast?_append_of_ne_nil _ (by decide)]
      rfl
  · rintro (same | same | intact)
    · exact absurd same mode
    · exact absurd same browser
    · exact intact_reference before key after outside single ends intact

theorem url_reference_substituted :
    substituteDependency "const url = process.env.API_URL;\n" = "const url = \x7b\x7d.env.API_URL;\n".toList := by
  have unnamed : ¬ HasWord processWord "API_URL" := fun present =>
    absurd (has_word_inside processWord _ present) (by decide)
  have whole : ("const url = process.env.API_URL;\n" : Text) =
      "const url = " ++ ("process.env." ++ ("API_URL" ++ ";\n")) := by decide
  rw [whole, (reference_substituted_iff "const url = " "API_URL" ";\n" (by decide) (by decide) (by decide)).mpr
    (.inr (.inr ⟨by decide, by decide, unnamed, by decide⟩))]
  decide +kernel

theorem prefixed_references_cut :
    substituteDependency "const m = process.env.NODE_ENV_MODE;\n" = "const m = \"development\"_MODE;\n".toList ∧
    substituteDependency "const m = " ++ (referenceMeaning "NODE_ENV_MODE" ++ substituteDependency ";\n") =
      "const m = \x7b\x7d.env.NODE_ENV_MODE;\n".toList ∧
    substituteDependency "process.env.BROWSERS" = "trueS".toList ∧
    substituteDependency [] ++ (referenceMeaning "BROWSERS" ++ substituteDependency []) =
      "\x7b\x7d.env.BROWSERS".toList ∧
    substituteDependency "process.env.$process" = "\x7b\x7d.env.$\x7b\x7d".toList := by
  decide +kernel

end References

end DevServer.Env
