import DevServer.FileTree.Edit
import DevServer.Package.Cache

set_option autoImplicit false

namespace DevServer.Package

namespace Key

variable {a b c : Key}

theorem same_iff : a.same b = true ↔
    a.specifier = b.specifier ∧ Path.components a.root = Path.components b.root := by
  simp only [Key.same, Path.same, Bool.and_eq_true, beq_iff_eq]

theorem same_left (same : a.same b = true) : a.same c = b.same c := by
  obtain ⟨specifier, root⟩ := same_iff.mp same
  simp only [Key.same, Path.same, specifier, root]

theorem same_comm (a b : Key) : a.same b = b.same a := by
  rw [Bool.eq_iff_iff, same_iff, same_iff]
  exact and_congr eq_comm eq_comm

end Key

namespace Entries

variable (entries : Entries) (key : Key)

def Distinct (entries : Entries) : Prop :=
  entries.Pairwise fun a b => a.key.same b.key = false

theorem find_remove (other : Key) :
    find? key (remove other entries) = if other.same key then none else find? key entries := by
  unfold find? remove
  rw [List.find?_filter]
  by_cases same : other.same key = true
  · rw [if_pos same, List.find?_eq_none]
    intro entry _
    rw [Key.same_comm other key] at same
    rw [Key.same_comm entry.key other, Key.same_comm entry.key key, Key.same_left same]
    simp
  · rw [if_neg same]
    congr 1
    funext entry
    cases hit : entry.key.same key with
    | false => simp
    | true =>
        rw [Key.same_left hit, Key.same_comm]
        simp [same]

theorem find_set (tree : FileTree) (other : Key) (resolution : Resolution) :
    find? key (set tree other resolution entries) =
      if other.same key then some ⟨other, resolution, Stamp.of tree resolution.manifest⟩
      else find? key entries := by
  have old := find_remove entries key other
  unfold find? at old ⊢
  unfold set
  rw [List.find?_cons, old]
  by_cases same : other.same key = true
  · simp only [same, if_true]
  · simp only [same, if_neg, Bool.false_eq_true, not_false_eq_true]

-- At most one entry has the key, so none takes its place when it goes.
theorem find_filter (keep : Entry → Bool) (distinct : Distinct entries) :
    find? key (entries.filter keep) = (find? key entries).filter keep := by
  unfold find?
  generalize matching : (fun entry : Entry => entry.key.same key) = isKey
  induction entries with
  | nil => rfl
  | cons entry rest ih =>
      obtain ⟨apart, distinct⟩ := List.pairwise_cons.mp distinct
      by_cases hit : isKey entry = true
      · rw [List.find?_cons_of_pos hit]
        by_cases kept : keep entry = true
        · rw [List.filter_cons_of_pos kept, List.find?_cons_of_pos hit, Option.filter_some, if_pos kept]
        · have absent : (rest.filter keep).find? isKey = none := by
            rw [List.find?_eq_none]
            intro other member again
            have differs := apart other (List.mem_filter.mp member).1
            subst matching
            rw [Key.same_left hit, Key.same_comm] at differs
            exact Bool.false_ne_true (differs.symm.trans again)
          rw [List.filter_cons_of_neg kept, absent, Option.filter_some, if_neg kept]
      · rw [List.find?_cons_of_neg hit, ← ih distinct]
        by_cases kept : keep entry = true
        · rw [List.filter_cons_of_pos kept, List.find?_cons_of_neg hit]
        · rw [List.filter_cons_of_neg kept]

theorem distinct_remove (distinct : Distinct entries) : Distinct (remove key entries) :=
  distinct.filter _

theorem distinct_set (tree : FileTree) (resolution : Resolution) (distinct : Distinct entries) :
    Distinct (set tree key resolution entries) := by
  refine List.pairwise_cons.mpr ⟨?_, distinct_remove entries key distinct⟩
  intro entry member
  have other := (List.mem_filter.mp member).2
  rw [Key.same_comm]
  simpa using other

theorem get_entries (tree : FileTree) :
    (get tree key entries).2 =
      if (get tree key entries).1.isSome then entries else remove key entries := by
  unfold get
  cases found : find? key entries with
  | none =>
      have nothing : remove key entries = entries := by
        unfold remove
        rw [List.filter_eq_self]
        intro entry member
        have other := List.find?_eq_none.mp found entry member
        simpa using other
      simp [nothing]
  | some entry =>
      by_cases fresh : isFresh tree entry = true
      · simp [fresh]
      · simp [fresh]

theorem get_some (tree : FileTree) (file : Path) :
    (get tree key entries).1 = some file ↔
      ∃ entry, find? key entries = some entry ∧ isFresh tree entry = true ∧
        entry.resolution.file = file := by
  unfold get
  cases found : find? key entries with
  | none => simp
  | some entry =>
      by_cases fresh : isFresh tree entry = true
      · simp [fresh]
      · simp [fresh]

end Entries

-- Times that leave the same milliseconds in a stamp, which counts them up to 2 ^ 64.
def Simultaneous (a b : Int) : Prop :=
  a < 0 ∧ b < 0 ∨ 0 ≤ a ∧ 0 ≤ b ∧ a / 1000000 % 18446744073709551616 = b / 1000000 % 18446744073709551616

theorem milliseconds_iff (a b : Int) :
    Stamp.milliseconds? a = Stamp.milliseconds? b ↔ Simultaneous a b := by
  unfold Stamp.milliseconds? Stamp.wordSize Simultaneous
  by_cases since : 0 ≤ a
  · by_cases since' : 0 ≤ b
    · rw [if_pos since, if_pos since', Option.some.injEq]
      omega
    · rw [if_pos since, if_neg since']
      exact iff_of_false nofun (by omega)
  · by_cases since' : 0 ≤ b
    · rw [if_neg since, if_pos since']
      exact iff_of_false nofun (by omega)
    · rw [if_neg since, if_neg since']
      exact iff_of_true rfl (by omega)

theorem simultaneous_iff (a b : Int) (early : a < 1000000 * 18446744073709551616)
    (early' : b < 1000000 * 18446744073709551616) :
    Simultaneous a b ↔ a < 0 ∧ b < 0 ∨ 0 ≤ a ∧ 0 ≤ b ∧ a / 1000000 = b / 1000000 := by
  unfold Simultaneous
  omega

theorem simultaneous_wraps (a : Int) (since : 0 ≤ a) : Simultaneous (a + 1000000 * 18446744073709551616) a := by
  unfold Simultaneous
  omega

-- The size of what a path leads to, and when it was last written.
def shown? (tree : FileTree) (path : Path) : Option (Nat × Int) :=
  (tree.find true path).toOption.map fun found => (tree.size found.1 found.2, tree.modified found.1 found.2)

def Unchanged (now before : FileTree) (path : Path) : Prop :=
  ∃ size time time', shown? now path = some (size, time) ∧ shown? before path = some (size, time') ∧
    Simultaneous time time'

theorem stamp_shown (tree : FileTree) (path : Path) :
    Stamp.of tree path = ((shown? tree path).map fun shown =>
      ⟨Stamp.milliseconds? shown.2, some shown.1⟩).getD Stamp.empty := by
  rw [Stamp.of, shown?]
  cases tree.find true path with
  | error error => rfl
  | ok found => rfl

theorem present_iff (tree : FileTree) (path : Path) :
    tree.isPresent path = true ↔ ∃ size time, shown? tree path = some (size, time) := by
  rw [FileTree.isPresent, FileTree.node, shown?]
  cases tree.find true path with
  | error error => exact iff_of_false nofun nofun
  | ok found => exact iff_of_true rfl ⟨_, _, rfl⟩

theorem unchanged_iff (now before : FileTree) (path : Path) :
    Unchanged now before path ↔ now.isPresent path = true ∧ Stamp.of now path = Stamp.of before path := by
  rw [present_iff, stamp_shown, stamp_shown]
  constructor
  · rintro ⟨size, time, time', found, found', same⟩
    have equal := (milliseconds_iff time time').mpr same
    rw [found, found', Option.map_some, Option.map_some, equal]
    exact ⟨⟨size, time, rfl⟩, rfl⟩
  · rintro ⟨⟨size, time, found⟩, same⟩
    rw [found] at same
    cases found' : shown? before path with
    | none =>
        rw [found'] at same
        cases (Stamp.mk.inj same).2
    | some there =>
        rw [found'] at same
        obtain ⟨times, sizes⟩ := Stamp.mk.inj same
        cases Option.some.inj sizes
        exact ⟨there.1, time, there.2, found, found', (milliseconds_iff _ _).mp times⟩

inductive Event where
  | stored (key : Key) (resolution : Resolution) (tree : FileTree)
  | hit (key : Key)
  | missed (key : Key)
  | invalidated (manifest : Path)

namespace Event

def ends (key : Key) (manifest : Path) : Event → Bool
  | stored other _ _ => other.same key
  | hit _ => false
  | missed other => other.same key
  | invalidated other => Path.same manifest other

end Event

abbrev History := List Event

namespace History

def kept? (key : Key) : History → Option Entry
  | [] => none
  | .stored other resolution tree :: earlier =>
    if other.same key then some ⟨other, resolution, Stamp.of tree resolution.manifest⟩
    else kept? key earlier
  | .hit _ :: earlier => kept? key earlier
  | .missed other :: earlier => if other.same key then none else kept? key earlier
  | .invalidated manifest :: earlier =>
    (kept? key earlier).filter fun entry => !Entries.dependsOn manifest entry

-- A store under the key that nothing later ends.
def Stands (key : Key) (history : History) (entry : Entry) : Prop :=
  ∃ later tree earlier,
    history = later ++ .stored entry.key entry.resolution tree :: earlier ∧
    entry.key.same key = true ∧
    entry.stamp = Stamp.of tree entry.resolution.manifest ∧
    ∀ event ∈ later, event.ends key entry.resolution.manifest = false

variable {key : Key} {entry : Entry}

theorem stands_cons (event : Event) (earlier : History)
    (passes : event.ends key entry.resolution.manifest = false) :
    Stands key (event :: earlier) entry ↔ Stands key earlier entry := by
  constructor
  · rintro ⟨later, tree, before, whole, same, stamp, none⟩
    cases later with
    | nil =>
        cases whole
        rw [Event.ends, same] at passes
        cases passes
    | cons first later =>
        cases whole
        exact ⟨later, tree, before, rfl, same, stamp,
          fun event member => none event (List.mem_cons_of_mem _ member)⟩
  · rintro ⟨later, tree, before, rfl, same, stamp, none⟩
    refine ⟨event :: later, tree, before, rfl, same, stamp, ?_⟩
    exact List.forall_mem_cons.mpr ⟨passes, none⟩

theorem ended_falls (event : Event) (earlier : History)
    (ended : event.ends key entry.resolution.manifest = true)
    (differs : ∀ tree, event ≠ .stored entry.key entry.resolution tree) :
    ¬ Stands key (event :: earlier) entry := by
  rintro ⟨later, tree, before, whole, _, _, none⟩
  cases later with
  | nil => exact differs tree (List.cons.inj whole).1
  | cons first later =>
      have passes := none first List.mem_cons_self
      rw [← (List.cons.inj whole).1, ended] at passes
      cases passes

theorem stored_stands (other : Key) (resolution : Resolution) (tree : FileTree)
    (earlier : History) (same : other.same key = true) :
    Stands key (.stored other resolution tree :: earlier) entry ↔
      entry = ⟨other, resolution, Stamp.of tree resolution.manifest⟩ := by
  constructor
  · rintro ⟨later, written, before, whole, _, stamp, none⟩
    cases later with
    | nil =>
        cases whole
        rw [← stamp]
    | cons first later =>
        have passes := none first List.mem_cons_self
        rw [← (List.cons.inj whole).1, Event.ends, same] at passes
        cases passes
  · rintro rfl
    exact ⟨[], tree, earlier, rfl, same, rfl, by simp⟩

theorem kept_iff (history : History) : history.kept? key = some entry ↔ Stands key history entry := by
  induction history with
  | nil => simp [kept?, Stands]
  | cons event earlier ih =>
      cases event with
      | stored other resolution tree =>
          by_cases same : other.same key = true
          · rw [kept?, if_pos same, stored_stands other resolution tree earlier same,
              Option.some.injEq, eq_comm]
          · have passes : (Event.stored other resolution tree).ends key entry.resolution.manifest =
              false := Bool.eq_false_iff.mpr same
            rw [kept?, if_neg same, ih, stands_cons _ earlier passes]
      | hit other => rw [kept?, ih, stands_cons _ earlier rfl]
      | missed other =>
          by_cases same : other.same key = true
          · have falls : ¬ Stands key (.missed other :: earlier) entry :=
              ended_falls _ earlier same (fun _ => Event.noConfusion)
            simp [kept?, same, falls]
          · have passes : (Event.missed other).ends key entry.resolution.manifest = false :=
              Bool.eq_false_iff.mpr same
            rw [kept?, if_neg same, ih, stands_cons _ earlier passes]
      | invalidated manifest =>
          rw [kept?, Option.filter_eq_some_iff, ih]
          by_cases depends : Path.same entry.resolution.manifest manifest = true
          · have falls : ¬ Stands key (.invalidated manifest :: earlier) entry :=
              ended_falls _ earlier depends (fun _ => Event.noConfusion)
            simp [Entries.dependsOn, depends, falls]
          · have passes : (Event.invalidated manifest).ends key entry.resolution.manifest = false :=
              Bool.eq_false_iff.mpr depends
            rw [stands_cons _ earlier passes]
            simp [Entries.dependsOn, depends]

end History

structure Session where
  tree : FileTree
  entries : Entries

namespace Session

inductive Step where
  | resolve (specifier : Text) (root : Path)
  | get (key : Key)
  | set (key : Key) (resolution : Resolution)
  | invalidate (manifest : Path)
  | change (tree : FileTree)

def cache (session : Session) : Cache := .memory session.entries

def lookup (session : Session) (key : Key) : Option Path × Cache :=
  session.cache.get session.tree key

def step (session : Session) : Step → Session
  | .resolve specifier root =>
    { session with entries := (session.cache.resolve session.tree specifier root).2.entries }
  | .get key => { session with entries := (session.lookup key).2.entries }
  | .set key resolution =>
    { session with entries := (session.cache.set session.tree key resolution).entries }
  | .invalidate manifest => { session with entries := (session.cache.invalidate manifest).2.entries }
  | .change tree => { session with tree := tree }

def looked (session : Session) (key : Key) : Event :=
  if (session.lookup key).1.isSome then .hit key else .missed key

def events (session : Session) : Step → History
  | .resolve specifier root =>
    let key : Key := ⟨specifier, root⟩
    match (session.lookup key).1, Package.resolve session.tree specifier root with
    | none, .ok resolution => [.stored key resolution session.tree, session.looked key]
    | _, _ => [session.looked key]
  | .get key => [session.looked key]
  | .set key resolution => [.stored key resolution session.tree]
  | .invalidate manifest => [.invalidated manifest]
  | .change _ => []

def run : Session → List Step → Session
  | session, [] => session
  | session, step :: rest => run (session.step step) rest

def history : Session → List Step → History
  | _, [] => []
  | session, step :: rest => history (session.step step) rest ++ session.events step

def start (tree : FileTree) : Session := ⟨tree, []⟩

-- The entries are what the history says is kept, one for a key.
structure Tracks (session : Session) (history : History) : Prop where
  distinct : Entries.Distinct session.entries
  kept : ∀ key, Entries.find? key session.entries = history.kept? key

variable {session : Session} {history : History}

theorem start_tracks (tree : FileTree) : Tracks (start tree) [] := ⟨List.Pairwise.nil, fun _ => rfl⟩

theorem lookup_eq (session : Session) (key : Key) : session.lookup key =
    ((Entries.get session.tree key session.entries).1,
      .memory (Entries.get session.tree key session.entries).2) := rfl

theorem look_tracks (tracks : Tracks session history) (key : Key) :
    Tracks { session with entries := (session.lookup key).2.entries }
      (session.looked key :: history) := by
  have after : (session.lookup key).2.entries = if (session.lookup key).1.isSome
      then session.entries else Entries.remove key session.entries :=
    Entries.get_entries session.entries key session.tree
  rw [after, looked]
  by_cases hit : (session.lookup key).1.isSome = true
  · rw [if_pos hit, if_pos hit]
    exact ⟨tracks.distinct, tracks.kept⟩
  · rw [if_neg hit, if_neg hit]
    refine ⟨Entries.distinct_remove _ key tracks.distinct, fun other => ?_⟩
    rw [Entries.find_remove, History.kept?, tracks.kept]

theorem store_tracks (tracks : Tracks session history) (key : Key) (resolution : Resolution) :
    Tracks { session with entries := Entries.set session.tree key resolution session.entries }
      (.stored key resolution session.tree :: history) := by
  refine ⟨Entries.distinct_set _ key session.tree resolution tracks.distinct, fun other => ?_⟩
  rw [Entries.find_set, History.kept?, tracks.kept]

theorem resolve_hit (specifier : Text) (root file : Path)
    (hit : (session.lookup ⟨specifier, root⟩).1 = some file) :
    session.cache.resolve session.tree specifier root =
      (.ok file, (session.lookup ⟨specifier, root⟩).2) := by
  unfold lookup at hit ⊢
  unfold Cache.resolve
  cases looked : session.cache.get session.tree ⟨specifier, root⟩ with
  | mk answer rest =>
      rw [looked] at hit
      cases hit
      simp only [looked]

theorem resolve_miss (specifier : Text) (root : Path)
    (miss : (session.lookup ⟨specifier, root⟩).1 = none) :
    session.cache.resolve session.tree specifier root =
      match Package.resolve session.tree specifier root with
      | .ok resolution => (.ok resolution.file,
          (session.lookup ⟨specifier, root⟩).2.set session.tree ⟨specifier, root⟩ resolution)
      | .error error => (.error error, (session.lookup ⟨specifier, root⟩).2) := by
  unfold lookup at miss ⊢
  unfold Cache.resolve
  cases looked : session.cache.get session.tree ⟨specifier, root⟩ with
  | mk answer rest =>
      rw [looked] at miss
      cases miss
      cases Package.resolve session.tree specifier root with
      | ok resolution => simp only [looked]
      | error error => simp only [looked]

theorem step_tracks (tracks : Tracks session history) (step : Step) :
    Tracks (session.step step) (session.events step ++ history) := by
  cases step with
  | resolve specifier root =>
      have looked := look_tracks tracks ⟨specifier, root⟩
      rw [Session.step, events]
      cases found : (session.lookup ⟨specifier, root⟩).1 with
      | some file =>
          rw [resolve_hit specifier root file found]
          exact looked
      | none =>
          rw [resolve_miss specifier root found]
          cases Package.resolve session.tree specifier root with
          | ok resolution => exact store_tracks looked ⟨specifier, root⟩ resolution
          | error error => exact looked
  | get key => exact look_tracks tracks key
  | set key resolution => exact store_tracks tracks key resolution
  | invalidate manifest =>
      refine ⟨tracks.distinct.filter _, fun key => ?_⟩
      have found := Entries.find_filter session.entries key
        (fun entry => !Entries.dependsOn manifest entry) tracks.distinct
      rw [tracks.kept] at found
      exact found
  | change tree => exact ⟨tracks.distinct, tracks.kept⟩

theorem run_tracks (tracks : Tracks session history) (steps : List Step) :
    Tracks (session.run steps) (session.history steps ++ history) := by
  induction steps generalizing session history with
  | nil => exact tracks
  | cons step rest ih =>
      rw [run, Session.history, List.append_assoc]
      exact ih (step_tracks tracks step)

theorem lookup_hit (key : Key) (file : Path) (hit : (session.lookup key).1 = some file) :
    (session.lookup key).2 = session.cache := by
  rw [lookup_eq] at hit ⊢
  rw [Entries.get_entries, hit]
  rfl

theorem lookup_miss (key : Key) (miss : (session.lookup key).1 = none) :
    (session.lookup key).2 = .memory (session.entries.filter fun entry => !entry.key.same key) := by
  rw [lookup_eq] at miss ⊢
  rw [Entries.get_entries, miss]
  rfl

theorem fresh_iff (tree written : FileTree) (entry : Entry)
    (taken : entry.stamp = Stamp.of written entry.resolution.manifest) :
    Entries.isFresh tree entry = true ↔ Unchanged tree written entry.resolution.manifest ∧
      tree.isPresent entry.resolution.file = true := by
  rw [unchanged_iff, ← taken, eq_comm (a := Stamp.of tree _)]
  simp only [Entries.isFresh, Stamp.matchesNow, Bool.and_eq_true, beq_iff_eq]

theorem lookup_stands (tracks : Tracks session history) (key : Key) (file : Path) :
    (session.lookup key).1 = some file ↔ ∃ entry, History.Stands key history entry ∧
      Entries.isFresh session.tree entry = true ∧ entry.resolution.file = file := by
  rw [lookup_eq, Entries.get_some, tracks.kept]
  simp only [History.kept_iff]

theorem lookup_iff (tracks : Tracks session history) (key : Key) (file : Path) :
    (session.lookup key).1 = some file ↔ ∃ later stored resolution written earlier,
      history = later ++ .stored stored resolution written :: earlier ∧
      stored.specifier = key.specifier ∧
      Path.components stored.root = Path.components key.root ∧
      resolution.file = file ∧
      (∀ event ∈ later, event.ends key resolution.manifest = false) ∧
      Unchanged session.tree written resolution.manifest ∧
      session.tree.isPresent file = true := by
  rw [lookup_stands tracks key file]
  constructor
  · rintro ⟨⟨stored, resolution, stamp⟩, ⟨later, written, earlier, whole, same, taken, none⟩,
      fresh, rfl⟩
    obtain ⟨unchanged, present⟩ := (fresh_iff session.tree written _ taken).mp fresh
    obtain ⟨specifier, root⟩ := Key.same_iff.mp same
    exact ⟨later, stored, resolution, written, earlier, whole, specifier, root, rfl, none,
      unchanged, present⟩
  · rintro ⟨later, stored, resolution, written, earlier, whole, specifier, root, rfl, none,
      unchanged, present⟩
    refine ⟨⟨stored, resolution, Stamp.of written resolution.manifest⟩,
      ⟨later, written, earlier, whole, Key.same_iff.mpr ⟨specifier, root⟩, rfl, none⟩, ?_, rfl⟩
    exact (fresh_iff session.tree written _ rfl).mpr ⟨unchanged, present⟩

theorem invalidate_counts (manifest : Path) : session.cache.invalidate manifest =
    (session.entries.countP fun entry => Path.same entry.resolution.manifest manifest,
      .memory (session.entries.filter fun entry =>
        !Path.same entry.resolution.manifest manifest)) := by
  rw [List.countP_eq_length_filter]
  rfl

theorem resolve_answers (specifier : Text) (root : Path) :
    session.cache.resolve session.tree specifier root =
      match (session.lookup ⟨specifier, root⟩).1, Package.resolve session.tree specifier root with
      | some file, _ => (.ok file, session.cache)
      | none, .ok resolution => (.ok resolution.file,
          (session.lookup ⟨specifier, root⟩).2.set session.tree ⟨specifier, root⟩ resolution)
      | none, .error error => (.error error, (session.lookup ⟨specifier, root⟩).2) := by
  cases looked : (session.lookup ⟨specifier, root⟩).1 with
  | some file => rw [resolve_hit specifier root file looked, lookup_hit _ file looked]
  | none =>
      rw [resolve_miss specifier root looked]
      cases Package.resolve session.tree specifier root <;> rfl

theorem kept_resolutions_exact (tree : FileTree) (steps : List Step) :
    let session := (start tree).run steps
    let history := (start tree).history steps
    (∀ key file, (session.lookup key).1 = some file ↔
      ∃ later stored resolution written earlier,
        history = later ++ .stored stored resolution written :: earlier ∧
        stored.specifier = key.specifier ∧
        Path.components stored.root = Path.components key.root ∧
        resolution.file = file ∧
        (∀ event ∈ later, event.ends key resolution.manifest = false) ∧
        Unchanged session.tree written resolution.manifest ∧
        session.tree.isPresent file = true) ∧
    (∀ key file, (session.lookup key).1 = some file → (session.lookup key).2 = session.cache) ∧
    (∀ key, (session.lookup key).1 = none →
      (session.lookup key).2 = .memory (session.entries.filter fun entry => !entry.key.same key)) ∧
    (∀ manifest, session.cache.invalidate manifest =
      (session.entries.countP fun entry => Path.same entry.resolution.manifest manifest,
        .memory (session.entries.filter fun entry =>
          !Path.same entry.resolution.manifest manifest))) ∧
    Entries.Distinct session.entries ∧
    (∀ specifier root, session.cache.resolve session.tree specifier root =
      match (session.lookup ⟨specifier, root⟩).1, Package.resolve session.tree specifier root with
      | some file, _ => (.ok file, session.cache)
      | none, .ok resolution => (.ok resolution.file,
          (session.lookup ⟨specifier, root⟩).2.set session.tree ⟨specifier, root⟩ resolution)
      | none, .error error => (.error error, (session.lookup ⟨specifier, root⟩).2)) ∧
    ∀ time time' : Int, time < 1000000 * 18446744073709551616 → time' < 1000000 * 18446744073709551616 →
      (Simultaneous time time' ↔
        time < 0 ∧ time' < 0 ∨ 0 ≤ time ∧ 0 ≤ time' ∧ time / 1000000 = time' / 1000000) := by
  intro session history
  have tracks : Tracks session history := by
    simpa using run_tracks (start_tracks tree) steps
  exact ⟨lookup_iff tracks, lookup_hit, lookup_miss, invalidate_counts, tracks.distinct,
    resolve_answers, simultaneous_iff⟩

def datedPackage (manifest : Text) (written : Int) : FileTree :=
  ((FileTree.empty ["p".toList] 0).write "/p/node_modules/q/package.json"
    (.file manifest.bytes written)).write "/p/node_modules/q/a.js" (.file .empty 0)

def datedResolution : Resolution := ⟨"/p/node_modules/q/a.js", "/p/node_modules/q/package.json"⟩

def rewritten (written : Int) : Session :=
  (start (datedPackage "[]" 5000000)).run
    [.set ⟨"q", "/p"⟩ datedResolution, .change (datedPackage "\x7b\x7d" written)]

theorem edited_manifest_missed :
    ((rewritten 5999999).lookup ⟨"q", "/p"⟩).1 = some datedResolution.file ∧
    ((rewritten (5000000 + 1000000 * 18446744073709551616)).lookup ⟨"q", "/p"⟩).1 = some datedResolution.file ∧
    ((rewritten 6000000).lookup ⟨"q", "/p"⟩).1 = none := by
  have looked (tree edited : FileTree) (key : Key) (resolution : Resolution) (file : Path) :
      (((start tree).run [.set key resolution, .change edited]).lookup key).1 = some file ↔
        resolution.file = file ∧ Unchanged edited tree resolution.manifest ∧ edited.isPresent file = true := by
    obtain ⟨hits, _⟩ := kept_resolutions_exact tree [.set key resolution, .change edited]
    have one : (start tree).history [.set key resolution, .change edited] = [.stored key resolution tree] := rfl
    rw [hits, one]
    constructor
    · rintro ⟨later, stored, resolution', written, earlier, whole, _, _, same, _, unchanged, there⟩
      cases later with
      | nil =>
          cases whole
          exact ⟨same, unchanged, there⟩
      | cons event later => cases later <;> cases whole
    · rintro ⟨same, unchanged, there⟩
      exact ⟨[], key, resolution, tree, [], rfl, rfl, rfl, same, by simp, unchanged, there⟩
  have before : shown? (datedPackage "[]" 5000000) datedResolution.manifest = some (2, 5000000) := by
    decide +kernel
  refine ⟨(looked _ _ _ _ _).mpr ⟨rfl, ⟨2, 5999999, 5000000, ?_, before, ?_⟩, ?_⟩,
    (looked _ _ _ _ _).mpr ⟨rfl, ⟨2, 5000000 + 1000000 * 18446744073709551616, 5000000, ?_, before, ?_⟩, ?_⟩, ?_⟩
  · decide +kernel
  · unfold Simultaneous
    omega
  · decide +kernel
  · decide +kernel
  · exact simultaneous_wraps 5000000 (by decide)
  · decide +kernel
  · rw [Option.eq_none_iff_forall_ne_some]
    intro file found
    obtain ⟨_, ⟨size, time, time', now, before', same⟩, _⟩ := (looked _ _ _ _ _).mp found
    have now' : shown? (datedPackage "\x7b\x7d" 6000000) datedResolution.manifest = some (2, 6000000) := by
      decide +kernel
    cases now'.symm.trans now
    cases before.symm.trans before'
    have equal := (simultaneous_iff 6000000 5000000 (by decide) (by decide)).mp same
    omega

end Session
end DevServer.Package
