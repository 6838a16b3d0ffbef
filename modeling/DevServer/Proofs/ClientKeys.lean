import Mathlib.Data.List.Basic
import DevServer.FileTree.Edit
import DevServer.Plugin.Builtin
import DevServer.Proofs.Lines
import DevServer.Proofs.Scan

set_option autoImplicit false

namespace DevServer.Env

open Text

section Definitions

def definitionsIn (tree : FileTree) (root : Path) (name : Text) : Definitions :=
  match tree.readText (Path.join root name) with
  | .ok content => parse content
  | .error _ => []

def processVariables (process : Definitions) : Definitions :=
  process.filterMap fun entry => cutAt? '=' (entry.1 ++ '=' :: entry.2)

def valuesOf (key : Text) (definitions : Definitions) : List Text :=
  (definitions.filter fun definition => definition.1 = key).map Prod.snd

-- All values that a key is given, the lowest first.
def ranked (tree : FileTree) (process : Definitions) (root : Path) (mode key : Text) : List Text :=
  valuesOf key ((fileNames mode).flatMap (definitionsIn tree root) ++ processVariables process)

theorem process_plain (process : Definitions) (plain : ∀ entry ∈ process, '=' ∉ entry.1) :
    processVariables process = process := by
  have same (entry : Text × Text) (member : entry ∈ process) :
      cutAt? '=' (entry.1 ++ '=' :: entry.2) = some entry :=
    (cut_at_some '=' _ entry.1 entry.2).mpr ⟨rfl, plain entry member⟩
  rw [processVariables, List.filterMap_congr same, List.filterMap_some]

theorem values_append (key : Text) (low high : Definitions) :
    valuesOf key (low ++ high) = valuesOf key low ++ valuesOf key high := by
  rw [valuesOf, List.filter_append, List.map_append]
  rfl

theorem lookup_values (key : Text) (definitions : Definitions) :
    lookup? key definitions = (valuesOf key definitions).getLast? := by
  rw [lookup?, valuesOf, List.getLast?_map, ← List.head?_reverse, ← List.filter_reverse, List.head?_filter]

theorem lookup_append (key : Text) (low high : Definitions) :
    lookup? key (low ++ high) = (lookup? key high).or (lookup? key low) := by
  simp only [lookup_values, values_append, List.getLast?_append]

theorem lookup_iff (key value : Text) (definitions : Definitions) : lookup? key definitions = some value ↔
    ∃ before after, definitions = before ++ (key, value) :: after ∧ ∀ later ∈ after, later.1 ≠ key := by
  rw [lookup?, Option.map_eq_some_iff]
  constructor
  · rintro ⟨definition, found, rfl⟩
    obtain ⟨own, after, before, whole, other⟩ := List.find?_eq_some_iff_append.mp found
    have same : definition.1 = key := by simpa using own
    refine ⟨before.reverse, after.reverse, ?_, fun later member => ?_⟩
    · rw [← List.reverse_reverse definitions, whole, ← same]
      simp
    · simpa using other later (List.mem_reverse.mp member)
  · rintro ⟨before, after, rfl, other⟩
    refine ⟨(key, value), List.find?_eq_some_iff_append.mpr ⟨by simp, after.reverse, before.reverse, by simp, ?_⟩, rfl⟩
    intro later member
    simpa using other later (List.mem_reverse.mp member)

theorem lookup_files (key : Text) (tree : FileTree) (root : Path) (names : List Text) :
    lookup? key (names.flatMap (definitionsIn tree root)) =
      names.reverse.findSome? fun name => lookup? key (definitionsIn tree root name) := by
  induction names with
  | nil => rfl
  | cons name names ih =>
      rw [List.flatMap_cons, lookup_append, ih, List.reverse_cons, List.findSome?_append, List.findSome?_cons]
      cases lookup? key (definitionsIn tree root name) <;> rfl

end Definitions

section Values

variable {key : Text} (some' : key ≠ []) (single : '=' ∉ key)
include some' single

theorem value_named (entry : Text × Text) : Client.valueNamed? key entry =
    (cutAt? '=' (entry.1 ++ '=' :: entry.2)).bind fun parts => if parts.1 = key then some parts.2 else none := by
  have mark : '=' ∈ entry.1 ++ '=' :: entry.2 := by simp
  rw [Client.valueNamed?, if_neg some']
  generalize entry.1 ++ '=' :: entry.2 = whole at mark
  cases cut : cutAt? '=' whole with
  | none => exact absurd mark ((cut_at_none '=' whole).mp cut)
  | some parts =>
      obtain ⟨name, value⟩ := parts
      obtain ⟨rfl, unsigned⟩ := (cut_at_some '=' whole name value).mp cut
      rw [Option.bind_some]
      by_cases same : name = key
      · rw [if_pos same, same]
        exact after?_eq_some.mpr (by simp)
      · rw [if_neg same, Option.eq_none_iff_forall_ne_some]
        intro rest found
        refine same (first_place '=' name value key rest ?_ unsigned single)
        rw [after?_eq_some.mp found, List.append_assoc]
        rfl

theorem variable_value (process : Definitions) :
    process.reverse.findSome? (Client.valueNamed? key) = lookup? key (processVariables process) := by
  have reversed : (processVariables process).reverse = processVariables process.reverse := by
    rw [processVariables, processVariables, List.filterMap_reverse]
  rw [lookup?, reversed]
  generalize process.reverse = entries
  induction entries with
  | nil => rfl
  | cons entry entries ih =>
      rw [List.findSome?_cons, value_named some' single, processVariables, List.filterMap_cons]
      cases cutAt? '=' (entry.1 ++ '=' :: entry.2) with
      | none => exact ih
      | some parts =>
          rw [Option.bind_some]
          by_cases same : parts.1 = key
          · rw [if_pos same, List.find?_cons_of_pos (by simpa using same)]
            rfl
          · rw [if_neg same, List.find?_cons_of_neg (by simpa using same)]
            exact ih

theorem client_value (tree : FileTree) (process : Definitions) (root : Path) (mode : Text) :
    (Client.load tree process root mode).value key =
      ((lookup? key (processVariables process)).or ((fileNames mode).reverse.findSome? fun name =>
        lookup? key (definitionsIn tree root name))).getD [] := by
  have files : Env.load tree root mode = (fileNames mode).flatMap (definitionsIn tree root) := rfl
  rw [Client.value, Client.load, variable_value some' single, files, lookup_files, Option.orElse_eq_or]

theorem client_ranked (tree : FileTree) (process : Definitions) (root : Path) (mode : Text) :
    (Client.load tree process root mode).value key = ((ranked tree process root mode key).getLast?).getD [] := by
  rw [client_value some' single, ← lookup_files, ← lookup_append, lookup_values, ranked]

end Values

def keyMark : Text := "import.meta.env."

def BeginsWithKey (text key rest : Text) : Prop :=
  text = keyMark ++ (key ++ rest) ∧ isIdentifier key = true ∧ rest.head?.any isIdentPart = false

theorem key_matched (before : Option Char) (text key rest : Text) :
    Client.keyMatcher before text = some (key, rest) ↔ BeginsWithKey text key rest := by
  rw [Client.keyMatcher, Option.bind_eq_bind, Option.bind_eq_some_iff]
  constructor
  · rintro ⟨left, marked, named⟩
    obtain ⟨rfl, identified, ends⟩ := (identifier_iff left key rest).mp named
    exact ⟨after?_eq_some.mp marked, identified, ends⟩
  · rintro ⟨rfl, identified, ends⟩
    exact ⟨key ++ rest, after?_append keyMark _, identifier_read key rest identified ends⟩

theorem keys_consumed : Consumes Client.keyMatcher := by
  intro before text key rest found
  obtain ⟨whole, _⟩ := (key_matched before text key rest).mp found
  exact ⟨keyMark ++ key, List.append_ne_nil_of_left_ne_nil (by decide) key, by rw [whole, List.append_assoc]⟩

inductive Substituted (print : Text → Text) : Text → Text → Prop where
  | nil : Substituted print [] []
  | kept (c : Char) {rest made : Text} : (∀ key left, ¬ BeginsWithKey (c :: rest) key left) →
      Substituted print rest made → Substituted print (c :: rest) (c :: made)
  | key {text key rest made : Text} : BeginsWithKey text key rest →
      Substituted print rest made → Substituted print text (print key ++ made)

theorem substitute_pass (print : Text → Text) (before : Option Char) (code : Text) :
    Substituted print code (render print (scanFrom Client.keyMatcher 0 before code)) := by
  induction before, code using scan_induction keys_consumed with
  | nil before => exact .nil
  | kept before c rest miss ih =>
      rw [scan_kept before c rest miss]
      refine .kept c (fun key left begins => ?_) ih
      rw [(key_matched before _ key left).mpr begins] at miss
      cases miss
  | found before used left key some' hit ih =>
      rw [scan_found before used left key some' hit]
      exact .key ((key_matched before _ key left).mp hit) ih

theorem Substituted.unique {print : Text → Text} {code made other : Text} (first : Substituted print code made)
    (second : Substituted print code other) : made = other := by
  induction first generalizing other with
  | nil =>
      cases second with
      | nil => rfl
      | key begins _ => cases begins.1
  | kept c absent _ ih =>
      cases second with
      | kept _ _ later => rw [ih later]
      | key begins _ => exact absurd begins (absent _ _)
  | key begins _ ih =>
      have matched := (key_matched none _ _ _).mpr begins
      cases second with
      | nil => cases begins.1
      | kept c absent _ => exact absurd begins (absent _ _)
      | key begins' later =>
          rw [(key_matched none _ _ _).mpr begins'] at matched
          cases matched
          rw [ih later]

theorem rendered_alike {α : Type} (print other : α → Text) (pieces : List (Piece α))
    (alike : ∀ a, .found a ∈ pieces → print a = other a) : render print pieces = render other pieces := by
  induction pieces with
  | nil => rfl
  | cons piece pieces ih =>
      rw [render_cons, render_cons, ih fun a member => alike a (List.mem_cons_of_mem piece member)]
      cases piece with
      | kept c => rfl
      | found a => rw [Piece.render, Piece.render, alike a List.mem_cons_self]

def builtIn : List Text := ["MODE", "DEV", "PROD"]

theorem literal_other (client : Client) (key : Text) (other : key ∉ builtIn) :
    client.literal key = Json.quote (client.value key) := by
  simp only [builtIn, List.mem_cons, List.not_mem_nil, or_false, not_or] at other
  rw [Client.literal, if_neg other.1, if_neg other.2.1, if_neg other.2.2]

theorem identifier_parts (key : Text) (identified : isIdentifier key = true) : key ≠ [] ∧ '=' ∉ key := by
  obtain ⟨_, some', inside⟩ := identifier_some key (identifier_read key [] identified rfl)
  exact ⟨some', fun member => absurd (List.all_eq_true.mp inside '=' member) (by decide)⟩

section Change

variable (tree tree' : FileTree) (process process' : Definitions) (root : Path) (mode : Text)

def ChangedBelow (key : Text) : Prop :=
  ∃ low low' high, (low = low' ∨ high ≠ []) ∧ ranked tree process root mode key = low ++ high ∧
    ranked tree' process' root mode key = low' ++ high

theorem literal_unchanged (key : Text) (identified : isIdentifier key = true)
    (below : key ∈ builtIn ∨ ChangedBelow tree tree' process process' root mode key) :
    (Client.load tree' process' root mode).literal key = (Client.load tree process root mode).literal key := by
  by_cases listed : key ∈ builtIn
  · simp only [builtIn, List.mem_cons, List.not_mem_nil, or_false] at listed
    rcases listed with rfl | rfl | rfl <;> rfl
  · obtain ⟨low, low', high, kept, whole, whole'⟩ := below.resolve_left listed
    obtain ⟨some', single⟩ := identifier_parts key identified
    have highest : (low' ++ high).getLast? = (low ++ high).getLast? := by
      rcases kept with rfl | some''
      · rfl
      · obtain ⟨last, found⟩ := Option.ne_none_iff_exists'.mp (mt List.getLast?_eq_none_iff.mp some'')
        rw [List.getLast?_append, List.getLast?_append, found, Option.some_or, Option.some_or]
    rw [literal_other _ key listed, literal_other _ key listed, client_ranked some' single, client_ranked some' single,
      whole, whole', highest]

theorem transform_unchanged (code module : Text)
    (below : ∀ key, .found key ∈ scan Client.keyMatcher code →
      key ∈ builtIn ∨ ChangedBelow tree tree' process process' root mode key) :
    (Plugin.env (Client.load tree' process' root mode)).transform code module =
      (Plugin.env (Client.load tree process root mode)).transform code module := by
  have made : (Client.load tree' process' root mode).substitute code =
      (Client.load tree process root mode).substitute code := by
    refine rendered_alike _ _ _ fun key found => ?_
    obtain ⟨before, place, left, _, hit⟩ := found_place 0 none code key found
    obtain ⟨_, identified, _⟩ := (key_matched before place key left).mp hit
    exact literal_unchanged tree tree' process process' root mode key identified (below key found)
  change Except.ok (if readsKey code then some _ else none) = Except.ok (if readsKey code then some _ else none)
  rw [made]

end Change

theorem client_keys_replaced (tree : FileTree) (process : Definitions) (root : Path) (mode code module : Text) :
    (∃ answer, (Plugin.env (Client.load tree process root mode)).transform code module = .ok answer ∧
      Substituted (Client.load tree process root mode).literal code (answer.getD code)) ∧
    (∀ print made other, Substituted print code made → Substituted print code other → made = other) ∧
    (Client.load tree process root mode).literal "MODE" = Json.quote mode ∧
    (Client.load tree process root mode).literal "DEV" =
      (if mode = developmentMode then "true" else "false" : String).toList ∧
    (Client.load tree process root mode).literal "PROD" =
      (if mode = developmentMode then "false" else "true" : String).toList ∧
    -- The process, then the files from the last to the first, then the empty text.
    (∀ key, isIdentifier key = true → key ∉ builtIn → (Client.load tree process root mode).literal key =
      Json.quote (((lookup? key (processVariables process)).or ((fileNames mode).reverse.findSome? fun name =>
        lookup? key (definitionsIn tree root name))).getD [])) ∧
    (∀ key value definitions, lookup? key definitions = some value ↔
      ∃ before after, definitions = before ++ (key, value) :: after ∧ ∀ later ∈ after, later.1 ≠ key) ∧
    ((∀ entry ∈ process, '=' ∉ entry.1) → processVariables process = process) ∧
    (∀ tree' process', (∀ key, .found key ∈ scan Client.keyMatcher code →
        key ∈ builtIn ∨ ChangedBelow tree tree' process process' root mode key) →
      (Plugin.env (Client.load tree' process' root mode)).transform code module =
        (Plugin.env (Client.load tree process root mode)).transform code module) := by
  refine ⟨?_, fun print made other first second => first.unique second, rfl, ?_, ?_, ?_, lookup_iff,
    process_plain process, ?_⟩
  · have pass := substitute_pass (Client.load tree process root mode).literal none code
    by_cases reads : readsKey code = true
    · exact ⟨some _, congrArg Except.ok (if_pos reads), pass⟩
    · have kept := scan_unmatched (Client.load tree process root mode).literal none code (Bool.eq_false_iff.mpr reads)
      rw [kept] at pass
      exact ⟨none, congrArg Except.ok (if_neg reads), pass⟩
  · change Client.bool (decide (mode = developmentMode)) = _
    by_cases same : mode = developmentMode <;> simp [same, Client.bool]
  · change Client.bool (!decide (mode = developmentMode)) = _
    by_cases same : mode = developmentMode <;> simp [same, Client.bool]
  · intro key identified other
    obtain ⟨some', single⟩ := identifier_parts key identified
    rw [literal_other _ key other, client_value some' single]
  · intro tree' process' below
    exact transform_unchanged tree tree' process process' root mode code module below

def layeredProject (shared here : Text) : FileTree :=
  ((FileTree.empty ["p".toList] 0).write "/p/.env" (.file shared.bytes 0)).write "/p/.env.local" (.file here.bytes 0)

def threeKeys : Text := "x(import.meta.env.A, import.meta.env.B, import.meta.env.DEVICE);"

theorem layered_keys_replaced :
    (Plugin.env (Client.load (layeredProject "A=1\nB=2\n" "A='3'\n") [("B", "")] "/p" "development")).transform
      threeKeys "/p/a.js" = .ok (some "x(\"3\", \"\", \"\");") ∧
    (Client.load (layeredProject "A=1\nB=2\n" "A='3'\n") [("B", "")] "/p" "development").literal "A" =
      Json.quote "3" ∧
    (Plugin.env (Client.load (layeredProject "A=9\n" "A='3'\n") [("B", "")] "/p" "development")).transform
      threeKeys "/p/a.js" = .ok (some "x(\"3\", \"\", \"\");") := by
  have answer : (Plugin.env (Client.load (layeredProject "A=1\nB=2\n" "A='3'\n") [("B", "")] "/p"
      "development")).transform threeKeys "/p/a.js" = .ok (some "x(\"3\", \"\", \"\");") := by decide +kernel
  obtain ⟨_, _, _, _, _, value, _, _, change⟩ := client_keys_replaced (layeredProject "A=1\nB=2\n" "A='3'\n")
    [("B", "")] "/p" "development" threeKeys "/p/a.js"
  refine ⟨answer, ?_, ?_⟩
  · rw [value "A" (by decide) (by decide)]
    decide +kernel
  · rw [← answer]
    refine change (layeredProject "A=9\n" "A='3'\n") [("B", "")] fun key found => ?_
    have keys : (scan Client.keyMatcher threeKeys).filterMap Piece.found? =
        ["A".toList, "B".toList, "DEVICE".toList] := by
      decide +kernel
    have listed : key ∈ (scan Client.keyMatcher threeKeys).filterMap Piece.found? :=
      List.mem_filterMap.mpr ⟨_, found, rfl⟩
    rw [keys] at listed
    simp only [List.mem_cons, List.not_mem_nil, or_false] at listed
    right
    rcases listed with rfl | rfl | rfl
    · exact ⟨["1".toList], ["9".toList], ["3".toList], by decide, by decide +kernel, by decide +kernel⟩
    · exact ⟨["2".toList], [], [[]], by decide, by decide +kernel, by decide +kernel⟩
    · exact ⟨[], [], [], by decide, by decide +kernel, by decide +kernel⟩

end DevServer.Env
