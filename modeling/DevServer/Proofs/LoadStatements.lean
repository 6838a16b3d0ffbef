import DevServer.Proofs.Assignments
import DevServer.Proofs.ExportStatements
import DevServer.Proofs.LiftedLoads
import DevServer.Proofs.Members

set_option autoImplicit false

namespace DevServer.CommonJs

open Text

section Names

def isField (name : Text) : Bool :=
  isTrimmed name && name.all fun c => c != ',' && c != ':' && c != '=' && c != '}'

structure NewName where
  gap : Text
  space : Text
  name : Text
  blank : gap.all isBlank = true
  clear : space.all isBlank = true
  identified : isIdentifier name = true

def NewName.text (newName : NewName) : Text := newName.gap ++ ':' :: (newName.space ++ newName.name)

structure Destructured where
  lead : Text
  field : Text
  newName : Option NewName
  trail : Text
  fallback : Option Text
  begins : lead.all isBlank = true
  named : isField field = true
  ends : trail.all isBlank = true
  simple : ∀ value ∈ fallback, ',' ∉ value ∧ '}' ∉ value

namespace Destructured

variable (member : Destructured)

def core : Text :=
  match member.newName with
  | none => member.field
  | some other => member.field ++ other.text

def text : Text :=
  member.lead ++ (member.core ++ (member.trail ++ match member.fallback with
    | none => []
    | some value => '=' :: value))

def imported : Text :=
  match member.newName with
  | none => member.field
  | some other => member.field ++ " as " ++ other.name

end Destructured

theorem field_parts (name : Text) (named : isField name = true) :
    isTrimmed name = true ∧ ',' ∉ name ∧ ':' ∉ name ∧ '=' ∉ name ∧ '}' ∉ name := by
  simp only [isField, Bool.and_eq_true, List.all_eq_true, bne_iff_ne] at named
  obtain ⟨trimmed, inside⟩ := named
  refine ⟨trimmed, ?_, ?_, ?_, ?_⟩
  · exact fun member => (inside _ member).1.1.1 rfl
  · exact fun member => (inside _ member).1.1.2 rfl
  · exact fun member => (inside _ member).1.2 rfl
  · exact fun member => (inside _ member).2 rfl

theorem identifier_field (name : Text) (identified : isIdentifier name = true) : isField name = true := by
  have other (c : Char) (foreign : isIdentPart c = false) (d : Char) (member : d ∈ name) : d ≠ c := by
    rintro rfl
    exact identifier_absent name identified d foreign member
  simp only [isField, Bool.and_eq_true, List.all_eq_true, bne_iff_ne]
  refine ⟨name_trimmed name (identifier_name name identified), fun c member => ⟨⟨⟨?_, ?_⟩, ?_⟩, ?_⟩⟩
  · exact other ',' (by decide) c member
  · exact other ':' (by decide) c member
  · exact other '=' (by decide) c member
  · exact other '}' (by decide) c member

theorem new_name_absent (other : NewName) (c : Char) (solid : isBlank c = false) (foreign : isIdentPart c = false)
    (apart : c ≠ ':') : c ∉ other.text := by
  simp [NewName.text, unspaced c solid _ other.blank, unspaced c solid _ other.clear, apart,
    identifier_absent _ other.identified c foreign]

theorem core_absent (member : Destructured) : ',' ∉ member.core ∧ '=' ∉ member.core ∧ '}' ∉ member.core := by
  obtain ⟨_, comma, _, equals, brace⟩ := field_parts member.field member.named
  unfold Destructured.core
  cases member.newName with
  | none => exact ⟨comma, equals, brace⟩
  | some other =>
      have absent := new_name_absent other
      simp [comma, equals, brace, absent ',' (by decide) (by decide) (by decide),
        absent '=' (by decide) (by decide) (by decide), absent '}' (by decide) (by decide) (by decide)]

theorem core_trimmed (member : Destructured) : isTrimmed member.core = true := by
  have trimmed := (field_parts member.field member.named).1
  unfold Destructured.core
  cases member.newName with
  | none => exact trimmed
  | some other =>
      have last := (field_parts other.name (identifier_field _ other.identified)).1
      simp only [isTrimmed, Bool.and_eq_true] at trimmed last
      have whole : other.text = (other.gap ++ ':' :: other.space) ++ other.name := by simp [NewName.text]
      have both := trimmed_append member.field (other.gap ++ ':' :: other.space) other.name trimmed.1 last.2
      rwa [← whole] at both

theorem text_absent (member : Destructured) : ',' ∉ member.text ∧ '}' ∉ member.text := by
  obtain ⟨comma, _, brace⟩ := core_absent member
  have clear (c : Char) (solid : isBlank c = false) (other : c ≠ '=') (outside : c ∉ member.core)
      (simple : ∀ value ∈ member.fallback, c ∉ value) : c ∉ member.text := by
    unfold Destructured.text
    cases fallback : member.fallback with
    | none => simp [unspaced c solid _ member.begins, unspaced c solid _ member.ends, outside]
    | some value =>
        simp [unspaced c solid _ member.begins, unspaced c solid _ member.ends, outside, other, simple value fallback]
  exact ⟨clear ',' (by decide) (by decide) comma fun value given => (member.simple value given).1,
    clear '}' (by decide) (by decide) brace fun value given => (member.simple value given).2⟩

theorem blanks_behind (c : Char) (solid : isBlank c = false) (text : Text) : ∃ front gap : Text,
    text = front ++ gap ∧ gap.all isBlank = true ∧ (c :: front).getLast?.any (!isBlank ·) = true := by
  induction text using List.reverseRecOn with
  | nil => exact ⟨[], [], rfl, rfl, by simp [solid]⟩
  | append_singleton text d ih =>
      cases blank : isBlank d with
      | true =>
          obtain ⟨front, gap, rfl, clear, last⟩ := ih
          exact ⟨front, gap ++ [d], by simp, by simp [clear, blank], last⟩
      | false =>
          refine ⟨text ++ [d], [], by simp, rfl, ?_⟩
          rw [← List.cons_append, List.getLast?_concat]
          simp [blank]

theorem default_dropped (member : Destructured) : ∃ gap : Text, gap.all isBlank = true ∧
    (trim member.text).takeWhile (· ≠ '=') = member.core ++ gap := by
  have trimmed := core_trimmed member
  have outside := (core_absent member).2.1
  cases fallback : member.fallback with
  | none =>
      have whole : member.text = member.lead ++ (member.core ++ member.trail) := by
        simp [Destructured.text, fallback]
      refine ⟨[], rfl, ?_⟩
      rw [whole, trim_trimmed _ _ _ member.begins member.ends trimmed, List.append_nil, List.takeWhile_eq_self_iff]
      exact List.all_eq_true.mp (all_without '=' member.core outside)
  | some value =>
      obtain ⟨front, gap, rfl, blank, last⟩ := blanks_behind '=' (by decide) value
      have whole : member.text = member.lead ++ (member.core ++ (member.trail ++ '=' :: front) ++ gap) := by
        simp [Destructured.text, fallback]
      have first : member.core.head?.any (!isBlank ·) = true := by
        rw [isTrimmed, Bool.and_eq_true] at trimmed
        exact trimmed.1
      have clear : '=' ∉ member.core ++ member.trail := by
        simp [outside, unspaced '=' (by decide) _ member.ends]
      refine ⟨member.trail, member.ends, ?_⟩
      rw [whole, trim_trimmed _ _ _ member.begins blank (trimmed_append _ _ _ first last), ← List.append_assoc]
      exact (until_stop '=' _ front clear).1

theorem member_imported (member : Destructured) : importedName (trim member.text) = member.imported := by
  obtain ⟨gap, blank, kept⟩ := default_dropped member
  have core : trim (member.core ++ gap) = member.core :=
    trim_trimmed [] member.core gap rfl blank (core_trimmed member)
  obtain ⟨trimmed, _, colon, _⟩ := field_parts member.field member.named
  simp only [importedName, kept, core]
  cases named : member.newName with
  | none =>
      have whole : member.core = member.field := by simp [Destructured.core, named]
      rw [whole, (cut_at_none ':' _).mpr colon]
      simp [Destructured.imported, named]
  | some other =>
      have cut : cutAt? ':' member.core = some (member.field ++ other.gap, other.space ++ other.name) := by
        rw [cut_at_some]
        exact ⟨by simp [Destructured.core, named, NewName.text],
          by simp [colon, unspaced ':' (by decide) _ other.blank]⟩
      have first : trim (member.field ++ other.gap) = member.field :=
        trim_trimmed [] member.field _ rfl other.blank trimmed
      have second : trim (other.space ++ other.name) = other.name := by
        have trimmed := (field_parts _ (identifier_field _ other.identified)).1
        simpa using trim_trimmed other.space other.name [] other.clear rfl trimmed
      simp [cut, first, second, Destructured.imported, named]

def memberList (members : List Destructured) (trailing : Option Text) : Text :=
  join [','] (members.map Destructured.text ++ trailing.toList)

theorem member_some (member : Destructured) : trim member.text ≠ [] := by
  intro empty
  obtain ⟨gap, _, kept⟩ := default_dropped member
  rw [empty] at kept
  exact trimmed_some _ (core_trimmed member) (List.append_eq_nil_iff.mp kept.symm).1

theorem list_imported (members : List Destructured) (trailing : Option Text)
    (blank : ∀ gap ∈ trailing, gap.all isBlank = true) :
    importedNames (memberList members trailing) = join ", " (members.map Destructured.imported) := by
  have commaless : ∀ part ∈ members.map Destructured.text, ',' ∉ part := by
    intro part inside
    obtain ⟨member, _, rfl⟩ := List.mem_map.mp inside
    exact (text_absent member).1
  have some' : ∀ part ∈ members.map Destructured.text, trim part ≠ [] := by
    intro part inside
    obtain ⟨member, _, rfl⟩ := List.mem_map.mp inside
    exact member_some member
  rw [importedNames, memberList, split_listed _ trailing commaless some' blank, List.map_map, List.map_map]
  exact congrArg (join ", ") (List.map_congr_left fun member _ => member_imported member)

theorem list_closed (members : List Destructured) (trailing : Option Text)
    (blank : ∀ gap ∈ trailing, gap.all isBlank = true) : '}' ∉ memberList members trailing := by
  refine join_absent '}' [','] (by decide) _ fun part inside => ?_
  obtain listed | last := List.mem_append.mp inside
  · obtain ⟨member, _, rfl⟩ := List.mem_map.mp listed
    exact (text_absent member).2
  · exact unspaced '}' (by decide) part (blank part (Option.mem_toList.mp last))

end Names

section Forms

structure Ending where
  gap : Text
  closed : Bool
  space : Text
  blank : gap.all isSpace = true
  clear : space.all isSpace = true

def Ending.text (ending : Ending) : Text := ending.gap ++ (semicolon ending.closed ++ ending.space)

inductive Form where
  | whole (name : Text)
  | member (name field : Text)
  | called (name arguments : Text)
  | members (list : List Destructured) (trailing : Option Text)

namespace Form

def isFormed : Form → Bool
  | whole name => isIdentifier name
  | member name field => isIdentifier name && isIdentifier field
  | called name _ => isIdentifier name
  | members _ trailing => trailing.all (·.all isBlank)

def name? : Form → Option Text
  | whole name => some name
  | member name _ => some name
  | called name _ => some name
  | members _ _ => none

def target : Form → Text
  | whole name => name
  | member name _ => name
  | called name _ => name
  | members list trailing => '{' :: (memberList list trailing ++ ['}'])

def use : Form → Text
  | whole _ => []
  | member _ field => '.' :: field
  | called _ arguments => '(' :: (arguments ++ [')'])
  | members _ _ => []

def binding : Form → Binding
  | whole name => .whole name
  | member name field => .member name field
  | called name arguments => .called name arguments
  | members list trailing => .members (memberList list trailing)

end Form

structure LoadStatement where
  keyword : Text
  start : Text
  form : Form
  gap : Text
  space : Text
  argument : Argument
  ending : Ending
  known : keyword ∈ keywords
  apart : start.all isSpace = true
  parted : form.name?.isSome = true → start ≠ []
  formed : form.isFormed = true
  blank : gap.all isSpace = true
  clear : space.all isSpace = true

namespace LoadStatement

variable (statement : LoadStatement)

def load : Text :=
  statement.gap ++ '=' :: (statement.space ++
    (loadCall ++ statement.argument.text (statement.form.use ++ statement.ending.text)))

def text : Text := statement.keyword ++ (statement.start ++ (statement.form.target ++ statement.load))

end LoadStatement

theorem ending_ends (ending : Ending) : endsStatement ending.text = true := by
  rw [ends_iff]
  cases closed : ending.closed with
  | false => exact .inl (by simp [Ending.text, closed, semicolon, ending.blank, ending.clear])
  | true => exact .inr ⟨_, _, ending.blank, ending.clear, by simp [Ending.text, closed, semicolon]⟩

theorem ending_plain (ending : Ending) : ∀ c ∈ ending.text, isIdentPart c = false ∧ c ≠ '.' ∧ c ≠ '(' := by
  have spaced (gap : Text) (blank : gap.all isSpace = true) : ∀ c ∈ gap, isIdentPart c = false ∧ c ≠ '.' ∧ c ≠ '(' := by
    intro c member
    have joins := space_joins_nothing c (List.all_eq_true.mp blank c member)
    simp only [joinsCall, Bool.or_eq_false_iff, beq_eq_false_iff_ne] at joins
    exact ⟨joins.1, joins.2, (space_passed gap blank c member).1⟩
  have closing : ∀ c ∈ semicolon ending.closed, isIdentPart c = false ∧ c ≠ '.' ∧ c ≠ '(' := by
    intro c member
    cases closed : ending.closed with
    | false =>
        rw [closed] at member
        cases member
    | true =>
        rw [closed] at member
        obtain rfl := List.mem_singleton.mp member
        exact ⟨rfl, by decide, by decide⟩
  intro c member
  obtain gap | member := List.mem_append.mp member
  · exact spaced _ ending.blank c gap
  · obtain closed | space := List.mem_append.mp member
    · exact closing c closed
    · exact spaced _ ending.clear c space

theorem arguments_read (arguments : Text) (ending : Ending) :
    callArguments? (arguments ++ ')' :: ending.text) = some arguments := by
  have reversed : (arguments ++ ')' :: ending.text).reverse = ending.text.reverse ++ ')' :: arguments.reverse := by simp
  cases closed : ending.closed with
  | false =>
      have blank : ending.text.reverse.all isSpace = true := by
        simp [Ending.text, closed, semicolon, ending.blank, ending.clear]
      have stop := spaces_stop ending.text.reverse ')' arguments.reverse blank (by decide)
      simp [callArguments?, reversed, stop]
  | true =>
      have parts : ending.text.reverse = ending.space.reverse ++ ';' :: ending.gap.reverse := by
        simp [Ending.text, closed, semicolon]
      have first := spaces_stop ending.space.reverse ';' (ending.gap.reverse ++ ')' :: arguments.reverse)
        (by simpa using ending.clear) (by decide)
      have second := spaces_stop ending.gap.reverse ')' arguments.reverse (by simpa using ending.blank) (by decide)
      simp [callArguments?, reversed, parts, first, second]

theorem bare_read (name source : Text) (ending : Ending) :
    named? name source ending.text = some ⟨.whole name, source⟩ := by
  have plain := ending_plain ending
  unfold named?
  split
  · rename_i rest same
    exact absurd rfl (plain '.' (by simp [same])).2.1
  · rename_i rest same
    exact absurd rfl (plain '(' (by simp [same])).2.2
  · rw [if_pos (ending_ends ending)]

theorem trailing_blank (list : List Destructured) (trailing : Option Text)
    (formed : (Form.members list trailing).isFormed = true) : ∀ gap ∈ trailing, gap.all isBlank = true := by
  simpa only [Form.isFormed, Option.all_eq_true, Option.mem_def] using formed

theorem form_read (form : Form) (name source : Text) (ending : Ending) (formed : form.isFormed = true)
    (named : form.name? = some name) : isIdentifier name = true ∧ form.target = name ∧
      named? name source (form.use ++ ending.text) = some ⟨form.binding, source⟩ := by
  cases form with
  | whole name' =>
      obtain rfl : name' = name := Option.some.inj named
      exact ⟨formed, rfl, bare_read name' source ending⟩
  | member name' field =>
      obtain rfl : name' = name := Option.some.inj named
      simp only [Form.isFormed, Bool.and_eq_true] at formed
      have stops : ending.text.head?.any isIdentPart = false := by
        cases first : ending.text.head? with
        | none => rfl
        | some c => exact (ending_plain ending c (List.mem_of_head? first)).1
      have read := identifier_read field ending.text formed.2 stops
      exact ⟨formed.1, rfl, by simp [Form.use, named?, read, ending_ends, Form.binding]⟩
  | called name' arguments =>
      obtain rfl : name' = name := Option.some.inj named
      have read := arguments_read arguments ending
      exact ⟨formed, rfl, by simp [Form.use, named?, read, Form.binding]⟩
  | members list trailing => cases named

theorem some_space_read (start rest : Text) (c : Char) (blank : start.all isSpace = true) (some' : start ≠ [])
    (solid : isSpace c = false) : someSpace? (start ++ c :: rest) = some (c :: rest) := by
  cases start with
  | nil => exact absurd rfl some'
  | cons d start =>
      rw [List.all_cons, Bool.and_eq_true] at blank
      rw [List.cons_append, someSpace?, if_pos blank.1, spaces_stop start c rest blank.2 solid]

theorem load_read (statement : LoadStatement) : ∃ called, assignment? statement.load = some called ∧
    call? called = some (statement.argument.source, statement.form.use ++ statement.ending.text) := by
  refine ⟨_, assignment_read _ _ _ statement.blank statement.clear rfl, ?_⟩
  exact (call_iff _ _ _).mpr ⟨statement.argument, rfl, rfl⟩

theorem name_statement (statement : LoadStatement) (name : Text) (named : statement.form.name? = some name) :
    ofName? (statement.start ++ (statement.form.target ++ statement.load)) =
      some ⟨statement.form.binding, statement.argument.source⟩ := by
  obtain ⟨identified, target, bound⟩ := form_read statement.form name statement.argument.source statement.ending
    statement.formed named
  obtain ⟨called, assigned, loaded⟩ := load_read statement
  cases name with
  | nil => cases identified
  | cons c name =>
      have part := isIdentPart_of_isIdentStart (Bool.and_eq_true_iff.mp identified).1
      have solid : isSpace c = false := by
        cases space : isSpace c with
        | false => rfl
        | true => rw [space_ends_name c space] at part; cases part
      have first := some_space_read statement.start (name ++ statement.load) c statement.apart
        (statement.parted (Option.isSome_of_mem named)) solid
      have second : identifier? (c :: (name ++ statement.load)) = some (c :: name, statement.load) :=
        identifier_read (c :: name) statement.load identified (sign_ends_name _ _ statement.blank)
      simp [ofName?, target, first, second, assigned, loaded, bound]

theorem brace_unnamed (start rest : Text) (blank : start.all isSpace = true) : ofName? (start ++ '{' :: rest) = none := by
  by_cases none' : start = []
  · rw [none']
    rfl
  · rw [ofName?, some_space_read start rest '{' blank none' (by decide)]
    rfl

theorem members_statement (statement : LoadStatement) (list : List Destructured) (trailing : Option Text)
    (bound : statement.form = .members list trailing) :
    (ofName? (statement.start ++ (statement.form.target ++ statement.load))).orElse
      (fun _ => ofMembers? (statement.start ++ (statement.form.target ++ statement.load))) =
        some ⟨statement.form.binding, statement.argument.source⟩ := by
  have blank := trailing_blank list trailing (bound ▸ statement.formed)
  have read := members_load_read statement.start (memberList list trailing) statement.gap statement.space
    statement.ending.text statement.argument statement.apart (list_closed list trailing blank) statement.blank
    statement.clear (ending_ends statement.ending)
  have whole : statement.form.target ++ statement.load = '{' :: (memberList list trailing ++ '}' :: (statement.gap ++
      '=' :: (statement.space ++ (loadCall ++ statement.argument.text statement.ending.text)))) := by
    simp [bound, Form.target, LoadStatement.load, Form.use]
  rw [whole, brace_unnamed _ _ statement.apart, Option.orElse_none, read, bound]
  rfl

theorem statement_read (statement : LoadStatement) : Load.ofLine? statement.text =
    some ⟨statement.form.binding, statement.argument.source⟩ := by
  rw [Load.ofLine?, LoadStatement.text, keyword_read statement.keyword statement.known, Option.bind_eq_bind, Option.bind_some]
  cases named : statement.form.name? with
  | some name =>
      rw [name_statement statement name named]
      rfl
  | none =>
      cases bound : statement.form with
      | members list trailing =>
          rw [← bound]
          exact members_statement statement list trailing bound
      | whole name => rw [bound] at named; cases named
      | member name field => rw [bound] at named; cases named
      | called name arguments => rw [bound] at named; cases named

end Forms

end DevServer.CommonJs
