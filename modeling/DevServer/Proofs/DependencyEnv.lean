import DevServer.Env.Client
import DevServer.Proofs.Rewrites

set_option autoImplicit false

namespace DevServer.Env

open Text

def modeMark : Text := "process.env.NODE_ENV"

def browserMark : Text := "process.env.BROWSER"

def processWord : Text := "process"

def putMode (code : Text) : Text := replace code modeMark "\"development\""

def putBrowser (code : Text) : Text := replace code browserMark "true"

def emptyProcess (code : Text) : Text := rewrite (wholeWord processWord) (fun _ => "\x7b\x7d") code

theorem substitutes (code : Text) : substituteDependency code = emptyProcess (putBrowser (putMode code)) := rfl

theorem mode_some : modeMark ≠ [] := by decide

theorem browser_some : browserMark ≠ [] := by decide

theorem process_some : processWord ≠ [] := by decide

theorem process_solid : processWord.all isWord = true := by decide

theorem mode_put (code : Text) : ¬ modeMark <:+: putMode code :=
  replaced_absent mode_some modeMark code mode_some (by decide) (by decide) (.inl rfl)

theorem browser_put (code : Text) (absent : ¬ modeMark <:+: code) :
    ¬ modeMark <:+: putBrowser code ∧ ¬ browserMark <:+: putBrowser code :=
  ⟨replaced_absent browser_some modeMark code mode_some (by decide) (by decide) (.inr absent),
    replaced_absent browser_some browserMark code browser_some (by decide) (by decide) (.inl rfl)⟩

theorem process_put (mark code : Text) (some' : mark ≠ []) (begins : isApart mark "\x7b\x7d" = true)
    (inside : isApart "\x7b\x7d" mark = true) (absent : ¬ mark <:+: code) : ¬ mark <:+: emptyProcess code :=
  rewritten_absent process_some (words_marked "\x7b\x7d") mark begins inside some' none code
    fun _ _ _ suffix _ here => absent (here.isInfix.trans suffix.isInfix)

theorem process_emptied (code : Text) : ¬ HasWord processWord (emptyProcess code) := by
  rw [← has_word_iff process_some, matches?, emptyProcess, rewrite, scan,
    words_absent process_some process_solid "\x7b\x7d" (by decide) (by decide) none none code rfl]
  exact Bool.false_ne_true

theorem process_same (code : Text) (absent : ¬ HasWord processWord code) : emptyProcess code = code := by
  rw [← has_word_iff process_some, Bool.not_eq_true] at absent
  exact scan_unmatched _ none code absent

theorem substituted_same (code : Text) (unnamed : ¬ HasWord processWord code) (mode : ¬ modeMark <:+: code)
    (browser : ¬ browserMark <:+: code) : substituteDependency code = code := by
  rw [substitutes, putMode, replaced_same mode_some code mode, putBrowser, replaced_same browser_some code browser,
    process_same code unnamed]

theorem substituted_absent (code : Text) : ¬ HasWord processWord (substituteDependency code) ∧
    ¬ modeMark <:+: substituteDependency code ∧ ¬ browserMark <:+: substituteDependency code := by
  obtain ⟨mode, browser⟩ := browser_put _ (mode_put code)
  exact ⟨process_emptied _, process_put modeMark _ mode_some (by decide) (by decide) mode,
    process_put browserMark _ browser_some (by decide) (by decide) browser⟩

theorem has_word_inside (word code : Text) (present : HasWord word code) : word <:+: code := by
  obtain ⟨front, rest, rfl, _⟩ := present
  exact ⟨front, rest, List.append_assoc front word rest⟩

theorem dependency_freed (code : Text) :
    (¬ HasWord "process" (substituteDependency code) ∧ ¬ "process.env.NODE_ENV" <:+: substituteDependency code ∧
      ¬ "process.env.BROWSER" <:+: substituteDependency code) ∧
    substituteDependency (substituteDependency code) = substituteDependency code ∧
    (¬ "process" <:+: code → substituteDependency code = code) := by
  have absent := substituted_absent code
  refine ⟨absent, substituted_same _ absent.1 absent.2.1 absent.2.2, fun unnamed => ?_⟩
  have mode : processWord <:+: modeMark := ⟨[], ".env.NODE_ENV", rfl⟩
  have browser : processWord <:+: browserMark := ⟨[], ".env.BROWSER", rfl⟩
  exact substituted_same code (fun present => unnamed (has_word_inside processWord code present))
    (fun present => unnamed (mode.trans present)) fun present => unnamed (browser.trans present)

theorem plain_dependency_kept : ¬ ("process" : Text) <:+: "const a = proc(1);\n" ∧
    substituteDependency "const a = proc(1);\n" = "const a = proc(1);\n".toList :=
  ⟨by decide, (dependency_freed "const a = proc(1);\n").2.2 (by decide)⟩

example : substituteDependency "process.env.NODE_ENVprocess;\nprocess_x(process)" =
    "\"development\"\x7b\x7d;\nprocess_x(\x7b\x7d)".toList := by decide +kernel

end DevServer.Env
