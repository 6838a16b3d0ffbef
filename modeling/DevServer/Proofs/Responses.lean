import DevServer.App.Basic
import DevServer.FileTree.Edit

set_option autoImplicit false

namespace DevServer.Package

def Entry.Faithful (tree : FileTree) (root : Path) (entry : Entry) : Prop :=
  entry.key.root = root ∧ resolve tree entry.key.specifier root = .ok entry.resolution

-- Roots are compared by components when an entry is looked up, but they are kept
-- as written, and a resolution is made of what is written.
def Cache.Faithful (tree : FileTree) (root : Path) (cache : Cache) : Prop :=
  ∀ entry ∈ cache.entries, entry.Faithful tree root

variable {tree : FileTree} {root : Path}

theorem find_same_specifier (key : Key) (entries : Entries) (entry : Entry)
    (found : Entries.find? key entries = some entry) :
    entry ∈ entries ∧ entry.key.specifier = key.specifier := by
  have member := List.mem_of_find?_eq_some found
  have same := List.find?_some found
  simp only [Key.same, Bool.and_eq_true, beq_iff_eq] at same
  exact ⟨member, same.1⟩

theorem remove_faithful (key : Key) (entries : Entries)
    (faithful : ∀ entry ∈ entries, entry.Faithful tree root) :
    ∀ entry ∈ Entries.remove key entries, entry.Faithful tree root := by
  intro entry member
  exact faithful entry (List.mem_filter.mp member).1

theorem get_faithful (key : Key) (cache : Cache) (faithful : cache.Faithful tree root) :
    (cache.get tree key).2.Faithful tree root := by
  cases cache with
  | off => exact faithful
  | memory entries =>
      simp only [Cache.get, Entries.get]
      cases Entries.find? key entries with
      | none => exact faithful
      | some entry =>
          by_cases fresh : Entries.isFresh tree entry = true
          · simp only [if_pos fresh]
            exact faithful
          · simp only [if_neg fresh]
            exact remove_faithful key entries faithful

theorem get_hit (key : Key) (cache : Cache) (file : Path) (faithful : cache.Faithful tree root)
    (hit : (cache.get tree key).1 = some file) :
    (resolve tree key.specifier root).map Resolution.file = .ok file := by
  cases cache with
  | off => simp [Cache.get] at hit
  | memory entries =>
      simp only [Cache.get, Entries.get] at hit
      cases found : Entries.find? key entries with
      | none => simp [found] at hit
      | some entry =>
          obtain ⟨member, same⟩ := find_same_specifier key entries entry found
          have kept := (faithful entry member).2
          by_cases fresh : Entries.isFresh tree entry = true
          · simp only [found, if_pos fresh, Option.some.injEq] at hit
            rw [← same, kept, ← hit]
            rfl
          · simp [found, fresh] at hit

theorem set_faithful (specifier : Text) (resolution : Resolution) (cache : Cache)
    (faithful : cache.Faithful tree root)
    (resolved : resolve tree specifier root = .ok resolution) :
    (cache.set tree ⟨specifier, root⟩ resolution).Faithful tree root := by
  cases cache with
  | off => exact faithful
  | memory entries =>
      intro entry member
      rcases List.mem_cons.mp member with new | old
      · subst new
        exact ⟨rfl, resolved⟩
      · exact remove_faithful ⟨specifier, root⟩ entries faithful entry old

theorem cached_resolve_fresh (specifier : Text) (cache : Cache)
    (faithful : cache.Faithful tree root) :
    (cache.resolve tree specifier root).1 = (resolve tree specifier root).map Resolution.file ∧
      (cache.resolve tree specifier root).2.Faithful tree root := by
  have after := get_faithful ⟨specifier, root⟩ cache faithful
  cases got : cache.get tree ⟨specifier, root⟩ with
  | mk answer rest =>
      rw [got] at after
      simp only [Cache.resolve, got]
      cases answer with
      | some file =>
          have hit := get_hit ⟨specifier, root⟩ cache file faithful (by rw [got])
          exact ⟨hit.symm, after⟩
      | none =>
          cases resolved : resolve tree specifier root with
          | ok resolution => exact ⟨rfl, set_faithful specifier resolution rest after resolved⟩
          | error error => exact ⟨rfl, after⟩

end DevServer.Package

namespace DevServer

open Package

namespace App

def respondAll (app : App) (tree : FileTree) : List Http.Request → List Http.Response × App
  | [] => ([], app)
  | request :: rest =>
    let (response, app) := app.respond tree request
    let (responses, app) := respondAll app tree rest
    (response :: responses, app)

structure Alike (tree : FileTree) (a b : App) : Prop where
  entry : a.entry = b.entry
  livePort : a.livePort = b.livePort
  server : a.server = b.server
  left : a.cache.Faithful tree a.server.root
  right : b.cache.Faithful tree b.server.root

variable {tree : FileTree} {a b : App}

theorem Alike.symm (alike : Alike tree a b) : Alike tree b a :=
  ⟨alike.entry.symm, alike.livePort.symm, alike.server.symm, alike.right, alike.left⟩

theorem Alike.trans {c : App} (first : Alike tree a b) (second : Alike tree b c) :
    Alike tree a c :=
  ⟨first.entry.trans second.entry, first.livePort.trans second.livePort,
    first.server.trans second.server, first.left, second.right⟩

theorem server_dependency_fresh (server : Server) (specifier : Text) (cache : Cache)
    (faithful : cache.Faithful tree server.root) :
    (server.dependency tree specifier cache).1 = (server.dependency tree specifier .off).1 ∧
      (server.dependency tree specifier cache).2.Faithful tree server.root := by
  have plain : Cache.Faithful tree server.root .off := by
    intro entry member
    cases member
  obtain ⟨same, kept⟩ := cached_resolve_fresh specifier cache faithful
  have fresh := (cached_resolve_fresh specifier .off plain).1
  unfold Server.dependency
  cases one : cache.resolve tree specifier server.root with
  | mk answer rest =>
      cases two : Cache.resolve tree specifier server.root .off with
      | mk other _ =>
          rw [one] at same kept
          rw [two] at fresh
          have equal : answer = other := same.trans fresh.symm
          subst equal
          cases answer with
          | error cause => exact ⟨rfl, kept⟩
          | ok file => exact ⟨rfl, kept⟩

theorem dependency_alike (tail : Text) (alike : Alike tree a b) :
    (a.dependency tree tail).1 = (b.dependency tree tail).1 ∧
      Alike tree (a.dependency tree tail).2 b := by
  unfold App.dependency
  cases Http.Percent.decodeText? tail with
  | none => exact ⟨rfl, alike⟩
  | some decoded =>
      obtain ⟨one, kept⟩ := server_dependency_fresh a.server (decoded.dropWhile (· == '/'))
        a.cache alike.left
      obtain ⟨two, _⟩ := server_dependency_fresh b.server (decoded.dropWhile (· == '/'))
        b.cache alike.right
      refine ⟨?_, alike.entry, alike.livePort, alike.server, kept, alike.right⟩
      have answers := one.trans ((congrArg (fun server : Server =>
        (server.dependency tree (decoded.dropWhile (· == '/')) .off).1) alike.server).trans two.symm)
      simp only [answers]

theorem answer_alike (request : Http.Request) (alike : Alike tree a b) :
    (a.answer tree request).1 = (b.answer tree request).1 ∧
      Alike tree (a.answer tree request).2 b := by
  unfold App.answer
  cases Route.ofPath request.target.path with
  | page => exact ⟨by simp only [App.page, alike.server, alike.entry], alike⟩
  | refreshShim => exact ⟨rfl, alike⟩
  | liveUpdate => exact ⟨by simp only [alike.livePort], alike⟩
  | dependency tail => exact dependency_alike tail alike
  | source => exact ⟨by simp only [App.source, alike.server], alike⟩
  | publicFile => exact ⟨by simp only [App.publicFile, alike.server], alike⟩

theorem respond_alike (request : Http.Request) (alike : Alike tree a b) :
    (a.respond tree request).1 = (b.respond tree request).1 ∧
      Alike tree (a.respond tree request).2 b := by
  obtain ⟨same, kept⟩ := answer_alike request alike
  have shared := congrArg Http.Response.forEveryOrigin same
  unfold App.respond
  cases request.method with
  | options => exact ⟨rfl, alike⟩
  | get => exact ⟨shared, kept⟩
  | head => exact ⟨shared, kept⟩
  | other name => exact ⟨shared, kept⟩

theorem respond_all_alike (requests : List Http.Request) (alike : Alike tree a b) :
    (a.respondAll tree requests).1 = requests.map fun request => (b.respond tree request).1 := by
  induction requests generalizing a with
  | nil => rfl
  | cons request rest ih =>
      obtain ⟨same, kept⟩ := respond_alike request alike
      simp only [respondAll, List.map_cons, same, ih kept]

theorem new_alike (process : Env.Definitions) (root : Path) (config : Config) (mode : Text)
    (livePort : Port) (app : App) (keep : Bool)
    (built : App.new tree process root config mode livePort = .ok app) :
    ∃ other, App.new tree process root { config with keepResolutions := keep } mode livePort =
      .ok other ∧ Alike tree other app := by
  have nothing (config : Config) : (emptyCache config).Faithful tree root := by
    intro entry member
    unfold emptyCache at member
    split at member <;> cases member
  simp only [App.new] at built ⊢
  cases named : Plugin.ofNames (Env.Client.load tree process root mode) config.define
      config.plugins with
  | error error =>
      rw [named] at built
      cases built
  | ok plugins =>
      rw [named] at built
      cases built
      exact ⟨_, rfl, rfl, rfl, rfl, nothing _, nothing _⟩

theorem responses_independent_of_history (tree : FileTree) (process : Env.Definitions)
    (root : Path) (config : Config) (mode : Text) (livePort : Port) (app : App)
    (built : App.new tree process root config mode livePort = .ok app) :
    (∀ requests, (app.respondAll tree requests).1 =
      requests.map fun request => (app.respond tree request).1) ∧
    ∀ keep, ∃ other,
      App.new tree process root { config with keepResolutions := keep } mode livePort = .ok other ∧
      ∀ requests, (other.respondAll tree requests).1 = (app.respondAll tree requests).1 := by
  obtain ⟨_, _, near⟩ := new_alike process root config mode livePort app true built
  have self : Alike tree app app := near.symm.trans near
  refine ⟨fun requests => respond_all_alike requests self, fun keep => ?_⟩
  obtain ⟨other, rebuilt, alike⟩ := new_alike process root config mode livePort app keep built
  refine ⟨other, rebuilt, fun requests => ?_⟩
  rw [respond_all_alike requests alike, respond_all_alike requests self]

def packageProject : FileTree :=
  ((FileTree.empty ["p".toList] 0).write "/p/node_modules/q/package.json"
    (.file "\x7b\x7d".toUTF8 0)).write "/p/node_modules/q/index.js"
      (.file "export default 1;".toUTF8 0)

def keepingConfig : Config := { Config.default with keepResolutions := true }

theorem kept_package_responses : ∃ app other,
    App.new packageProject [] "/p" keepingConfig "development" 5001 = .ok app ∧
    App.new packageProject [] "/p" Config.default "development" 5001 = .ok other ∧
    ∀ requests,
      (app.respondAll packageProject requests).1 =
        requests.map (fun request => (app.respond packageProject request).1) ∧
      (other.respondAll packageProject requests).1 = (app.respondAll packageProject requests).1 := by
  obtain ⟨alone, kept⟩ := responses_independent_of_history packageProject [] "/p" keepingConfig
    "development" 5001 _ rfl
  obtain ⟨other, rebuilt, same⟩ := kept false
  exact ⟨_, other, rfl, rebuilt, fun requests => ⟨alone requests, same requests⟩⟩

end App
end DevServer
