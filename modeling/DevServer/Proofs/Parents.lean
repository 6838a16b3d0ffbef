import DevServer.Proofs.Spellings

set_option autoImplicit false

namespace DevServer

open Text

namespace Path

def readSegments (absolute : Bool) (parts : List Text) : List Component :=
  if absolute then .root :: parts.filterMap Component.ofSegment?
  else match parts with
    | ['.'] :: rest => .here :: rest.filterMap Component.ofSegment?
    | all => all.filterMap Component.ofSegment?

theorem components_read (path : Path) :
    components path = readSegments (isAbsolute path) (segments path) := rfl

theorem read_relative (parts : List Text) (undotted : parts.head? ≠ some ['.']) :
    readSegments false parts = parts.filterMap Component.ofSegment? := by
  rw [readSegments]
  · rfl
  · rintro rest rfl
    exact undotted rfl

theorem read_snoc (absolute : Bool) (front : List Text) (last : Text)
    (begun : absolute = false → front = [] → last ≠ ['.']) :
    readSegments absolute (front ++ [last]) =
      readSegments absolute front ++ [last].filterMap Component.ofSegment? := by
  cases absolute with
  | true => simp [readSegments]
  | false =>
      cases front with
      | nil =>
          rw [List.nil_append, read_relative [last] (by simpa using begun rfl rfl)]
          rfl
      | cons first front =>
          by_cases dot : first = ['.']
          · subst dot
            simp [readSegments]
          · rw [read_relative (first :: front) (by simpa using dot), List.cons_append,
              read_relative (first :: (front ++ [last])) (by simpa using dot), ← List.cons_append,
              List.filterMap_append]

theorem ends_parts (parts : List Text) : ∃ idles, parts = significant.ends parts ++ idles ∧
    (∀ segment ∈ idles, FileTree.isIdle segment = true) ∧
    ∀ last, (significant.ends parts).getLast? = some last → FileTree.isIdle last = false := by
  have test (segment : Text) : decide (segment = [] ∨ segment = ['.']) = FileTree.isIdle segment := rfl
  refine ⟨(parts.reverse.takeWhile FileTree.isIdle).reverse, ?_, ?_, ?_⟩
  · have whole := List.takeWhile_append_dropWhile (p := FileTree.isIdle) (l := parts.reverse)
    have turned := congrArg List.reverse whole
    rw [List.reverse_append, List.reverse_reverse] at turned
    exact turned.symm
  · intro segment member
    exact List.all_eq_true.mp List.all_takeWhile segment (List.mem_reverse.mp member)
  · intro last ended
    rw [significant.ends, List.getLast?_reverse] at ended
    have stopped := List.head?_dropWhile_not FileTree.isIdle parts.reverse
    simp only [test] at ended
    rw [ended] at stopped
    simpa using stopped

theorem idles_read (idles : List Text) (idle : ∀ segment ∈ idles, FileTree.isIdle segment = true) :
    idles.filterMap Component.ofSegment? = [] := by
  rw [List.filterMap_eq_nil_iff]
  intro segment member
  rcases segment_cases segment with ⟨_, none⟩ | ⟨moves, _⟩
  · exact none
  · cases (idle segment member).symm.trans moves

theorem ends_read (parts : List Text) :
    (significant.ends parts).filterMap Component.ofSegment? = parts.filterMap Component.ofSegment? := by
  obtain ⟨idles, whole, idle, _⟩ := ends_parts parts
  conv => rhs; rw [whole, List.filterMap_append, idles_read idles idle, List.append_nil]

theorem ends_undotted (parts : List Text) (undotted : parts.head? ≠ some ['.']) :
    (significant.ends parts).head? ≠ some ['.'] := by
  obtain ⟨idles, whole, _, _⟩ := ends_parts parts
  cases kept : significant.ends parts with
  | nil =>
      intro dot
      cases dot
  | cons first rest =>
      rw [kept] at whole
      rw [whole] at undotted
      exact undotted

theorem significant_relative (parts : List Text) (undotted : parts.head? ≠ some ['.']) :
    significant false parts = significant.ends parts := by
  rw [significant]
  rintro rest _ rfl
  exact undotted rfl

theorem significant_begins (absolute : Bool) (parts : List Text) : significant absolute parts <+: parts := by
  have ends (parts : List Text) : significant.ends parts <+: parts := by
    obtain ⟨idles, whole, _, _⟩ := ends_parts parts
    exact ⟨idles, whole.symm⟩
  cases absolute with
  | true => exact ends parts
  | false =>
      by_cases dotted : parts.head? = some ['.']
      · obtain ⟨rest, rfl⟩ := List.head?_eq_some_iff.mp dotted
        exact List.cons_prefix_cons.mpr ⟨rfl, ends rest⟩
      · rw [significant_relative parts dotted]
        exact ends parts

theorem read_significant (absolute : Bool) (parts : List Text) :
    readSegments absolute (significant absolute parts) = readSegments absolute parts := by
  cases absolute with
  | true => exact congrArg (List.cons Component.root) (ends_read parts)
  | false =>
      by_cases dotted : parts.head? = some ['.']
      · obtain ⟨rest, rfl⟩ := List.head?_eq_some_iff.mp dotted
        exact congrArg (List.cons Component.here) (ends_read rest)
      · rw [significant_relative parts dotted, read_relative _ (ends_undotted parts dotted),
          read_relative parts dotted, ends_read]

theorem significant_last (absolute : Bool) (parts front : List Text) (last : Text)
    (whole : significant absolute parts = front ++ [last]) :
    (readSegments absolute (front ++ [last])).dropLast = readSegments absolute front := by
  have single (moves : FileTree.isIdle last = false) :
      ∃ part, [last].filterMap Component.ofSegment? = [part] := by
    rcases segment_cases last with ⟨idle, _⟩ | ⟨_, part, some', _⟩
    · cases idle.symm.trans moves
    · exact ⟨part, by rw [List.filterMap_cons, some']; rfl⟩
  have moving (moves : FileTree.isIdle last = false) :
      (readSegments absolute (front ++ [last])).dropLast = readSegments absolute front := by
    obtain ⟨part, read⟩ := single moves
    have undotted : last ≠ ['.'] := by
      rintro rfl
      cases moves
    rw [read_snoc absolute front last fun _ _ => undotted, read, List.dropLast_concat]
  have ended (parts front : List Text) (same : significant.ends parts = front ++ [last]) :
      FileTree.isIdle last = false := by
    obtain ⟨_, _, _, ends⟩ := ends_parts parts
    exact ends last (by rw [same, List.getLast?_concat])
  cases absolute with
  | true => exact moving (ended parts front whole)
  | false =>
      by_cases dotted : parts.head? = some ['.']
      · obtain ⟨rest, rfl⟩ := List.head?_eq_some_iff.mp dotted
        have shape : ['.'] :: significant.ends rest = front ++ [last] := whole
        cases front with
        | nil =>
            rw [← (List.cons.inj shape).1]
            rfl
        | cons first front =>
            have tail : significant.ends rest = front ++ [last] := (List.cons.inj shape).2
            exact moving (ended rest front tail)
      · rw [significant_relative parts dotted] at whole
        exact moving (ended parts front whole)

theorem segments_relative (path : Path) (relative : isAbsolute path = false) :
    segments path = split '/' path := by
  rw [segments]
  rintro tail rfl
  cases relative

theorem of_segments_read (absolute : Bool) (parts : List Text) (flat : ∀ part ∈ parts, '/' ∉ part)
    (begun : absolute = false → parts.head? ≠ some []) :
    isAbsolute (ofSegments absolute parts) = absolute ∧
      components (ofSegments absolute parts) = readSegments absolute parts := by
  cases parts with
  | nil =>
      cases absolute with
      | true => exact ⟨rfl, rfl⟩
      | false => exact ⟨rfl, rfl⟩
  | cons part rest =>
      have cut := split_join '/' (part :: rest) (List.cons_ne_nil _ _) flat
      cases absolute with
      | true =>
          refine ⟨rfl, ?_⟩
          have whole : segments (ofSegments true (part :: rest)) = part :: rest := cut
          rw [components_read, whole]
          rfl
      | false =>
          have shape : ofSegments false (part :: rest) = Text.join ['/'] (part :: rest) := rfl
          have relative : isAbsolute (Text.join ['/'] (part :: rest)) = false := by
            cases whole : Text.join ['/'] (part :: rest) with
            | nil => rfl
            | cons c tail =>
                rw [absolute_cons, decide_eq_false_iff_not]
                rintro rfl
                rw [whole, split, if_pos rfl] at cut
                exact begun rfl (congrArg some (List.cons.inj cut).1.symm)
          have whole : segments (Text.join ['/'] (part :: rest)) = part :: rest := by
            rw [segments_relative _ relative, cut]
          rw [shape]
          exact ⟨relative, by rw [components_read, relative, whole]⟩

theorem segments_flat (path : Path) : ∀ part ∈ segments path, '/' ∉ part := by
  intro part member
  unfold segments at member
  split at member
  · exact not_mem_of_split '/' _ part member
  · exact not_mem_of_split '/' _ part member

theorem relative_begun (path : Path) (relative : isAbsolute path = false) (named : path ≠ []) :
    (segments path).head? ≠ some [] := by
  cases path with
  | nil => exact absurd rfl named
  | cons c rest =>
      rw [segments_relative (c :: rest) relative]
      rw [absolute_cons, decide_eq_false_iff_not] at relative
      rw [split, if_neg relative]
      cases parts : split '/' rest with
      | nil => exact absurd parts (split_ne_nil '/' rest)
      | cons part others =>
          intro empty
          cases empty

theorem parent_components (path dir : Path) (above : parent? path = some dir) :
    isAbsolute dir = isAbsolute path ∧ components dir = (components path).dropLast := by
  rw [parent?] at above
  cases kept : significant (isAbsolute path) (segments path) with
  | nil =>
      rw [kept] at above
      cases above
  | cons part parts =>
      obtain ⟨front, last, whole⟩ : ∃ front last, part :: parts = front ++ [last] :=
        ⟨_, _, (List.dropLast_concat_getLast (List.cons_ne_nil part parts)).symm⟩
      rw [kept] at above
      dsimp only at above
      rw [whole, List.dropLast_concat] at above
      rw [whole] at kept
      cases above
      have inside : significant (isAbsolute path) front <+: segments path := by
        have first := significant_begins (isAbsolute path) (segments path)
        rw [kept] at first
        exact (significant_begins _ front).trans ((List.prefix_append front [last]).trans first)
      have flat : ∀ part ∈ significant (isAbsolute path) front, '/' ∉ part :=
        fun part member => segments_flat path part (inside.subset member)
      have begun : isAbsolute path = false →
          (significant (isAbsolute path) front).head? ≠ some [] := by
        intro relative opened
        have named : path ≠ [] := by
          rintro rfl
          have nothing : significant (isAbsolute []) (segments []) = [] := rfl
          rw [nothing] at kept
          exact List.append_ne_nil_of_right_ne_nil front (List.cons_ne_nil last []) kept.symm
        obtain ⟨rest, shape⟩ := List.head?_eq_some_iff.mp opened
        rw [shape] at inside
        obtain ⟨more, split⟩ := inside
        refine relative_begun path relative named ?_
        rw [← split]
        rfl
      obtain ⟨kind, read⟩ := of_segments_read (isAbsolute path) _ flat begun
      refine ⟨kind, ?_⟩
      rw [read, read_significant, ← significant_last _ _ front last kept, ← kept, read_significant,
        ← components_read]

theorem parent_none_iff (path : Path) :
    parent? path = none ↔ components path = [] ∨ components path = [.root] := by
  constructor
  · intro top
    rw [parent?] at top
    cases kept : significant (isAbsolute path) (segments path) with
    | nil =>
        rw [components_read, ← read_significant, kept]
        cases isAbsolute path with
        | true => exact .inr rfl
        | false => exact .inl rfl
    | cons part parts =>
        rw [kept] at top
        cases top
  · intro top
    cases above : parent? path with
    | none => rfl
    | some dir =>
        obtain ⟨kind, parts⟩ := parent_components path dir above
        rcases top with empty | rooted
        · rw [components_nil path empty] at above
          cases above
        · have absolute : isAbsolute path = true := by
            rw [absolute_iff, rooted]
            exact List.mem_cons_self
          rw [absolute, absolute_iff, parts, rooted] at kind
          cases kind

theorem parent_same (path other : Path) (same : components path = components other) :
    (parent? path = none ∧ parent? other = none) ∨
      ∃ dir there, parent? path = some dir ∧ parent? other = some there ∧
        components dir = components there := by
  cases above : parent? path with
  | none =>
      have top := (parent_none_iff path).mp above
      rw [same] at top
      exact .inl ⟨rfl, (parent_none_iff other).mpr top⟩
  | some dir =>
      cases above' : parent? other with
      | none =>
          have top := (parent_none_iff other).mp above'
          rw [← same] at top
          cases above.symm.trans ((parent_none_iff path).mpr top)
      | some there =>
          refine .inr ⟨dir, there, rfl, rfl, ?_⟩
          rw [(parent_components path dir above).2, (parent_components other there above').2, same]

end Path
end DevServer
