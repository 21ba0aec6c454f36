import SchemaDiagram.Proofs.Encoding.Utf8
import SchemaDiagram.Proofs.FileTree.Proper
import SchemaDiagram.Proofs.FileTree.Resolving
import SchemaDiagram.Repository.Local

/-!
Where the files stand that a local repository reads. A path that leads anywhere is read inside the
root or not at all. Of a path that strays, names behind a link that leads back to itself are taken
back by two dots although nothing tells where they lead to, and what is left may lead out of the root.
-/

namespace SchemaDiagram

namespace FileTree

def HoldsText (t : FileTree) (place : Place) (text : String) : Prop :=
  ∃ content, t.find? place = some (.file content) ∧ Utf8.decode content = .ok text.toList

theorem isAbsolute_straightened (standing : Place) (p : Path) :
    (p.straightened standing).isAbsolute = true := by
  obtain ⟨anchor, names⟩ := p
  cases anchor <;> rfl

theorem isAbsolute_of_resolve {t : FileTree} {standing : Place} {path target : Path}
    (h : t.resolve standing path = .ok target) : target.isAbsolute = true := by
  rw [resolve] at h
  split at h
  · dsimp only at h
    split at h
    · exact absurd h (by simp)
    · obtain rfl := Except.ok.inj h
      split <;> exact isAbsolute_straightened standing _
  · exact absurd h (by simp)

end FileTree

namespace LocalRepository

open FileTree

def pathOf (r : LocalRepository) (path : String) : Path :=
  r.root.append (Path.ofText path)

def Inside (r : LocalRepository) (place : Place) : Prop :=
  r.root.names <+: place

def Reads (r : LocalRepository) (path : String) (place : Place) : Prop :=
  ∃ target, r.tree.resolve [] (r.pathOf path) = .ok target ∧
    Path.isWithin r.root target = true ∧ r.tree.follow .find [] target = .ok place

def Confined (r : LocalRepository) (path : String) : Prop :=
  ∀ text, r.fetch path = .ok text → text ≠ "" →
    ∃ place, r.Reads path place ∧ Straight r.tree place ∧ r.Inside place ∧
      HoldsText r.tree place text

/-- A path strays, and by its names what is left of it stays inside the root, but leads to a text
outside. -/
structure EscapesTo (r : LocalRepository) (path : String) (left : Path) (place : Place)
    (text : String) : Prop where
  nameable : (r.pathOf path).isNameable = true
  strays : Strays r.tree [] [] (r.pathOf path).names left
  within : Path.isWithin r.root (left.straightened []) = true
  follow : r.tree.follow .find [] (left.straightened []) = .ok place
  outside : ¬ r.Inside place
  text_ne : text ≠ ""
  holds : HoldsText r.tree place text

def Escapes (r : LocalRepository) (path : String) : Prop :=
  ∃ left place text, r.EscapesTo path left place text

section

variable {r : LocalRepository} {path text : String} {place place' : Place}

theorem textOf_eq_iff {u : FileTree} (htext : text ≠ "") :
    textOf u = text ↔ ∃ content, u = .file content ∧ Utf8.decode content = .ok text.toList := by
  cases u with
  | file content =>
      rw [textOf]
      cases hdecode : Utf8.decode content with
      | ok cs =>
          rw [← String.toList_inj]
          simp [hdecode]
      | error fault => simp [hdecode, htext.symm]
  | directory entries => simp [textOf, htext.symm]
  | link target => simp [textOf, htext.symm]

theorem fetch_eq_ok_iff (htext : text ≠ "") :
    r.fetch path = .ok text ↔ ∃ place, r.Reads path place ∧ HoldsText r.tree place text := by
  constructor
  · intro h
    rw [fetch] at h
    split at h
    · exact absurd h (by simp)
    next target hresolve =>
    split at h
    · next hwithin =>
        split at h
        · exact absurd h (by simp)
        next found hlocate =>
        cases found with
        | none => exact absurd (Except.ok.inj h).symm htext
        | some u =>
            obtain ⟨content, rfl, hdecode⟩ := (textOf_eq_iff htext).1 (Except.ok.inj h)
            obtain ⟨place, hfollow, hfind⟩ :=
              locate_eq_ok_iff.1 (locate?_eq_some_iff.1 hlocate)
            exact ⟨place, ⟨target, hresolve, hwithin, hfollow⟩, content, hfind, hdecode⟩
    · exact absurd (Except.ok.inj h).symm htext
  · rintro ⟨place, ⟨target, hresolve, hwithin, hfollow⟩, content, hfind, hdecode⟩
    have hlocate : r.tree.locate? [] target = .ok (some (.file content)) :=
      locate?_eq_some_iff.2 (locate_eq_ok_iff.2 ⟨place, hfollow, hfind⟩)
    have hfile : textOf (.file content) = text := (textOf_eq_iff htext).2 ⟨content, rfl, hdecode⟩
    rw [pathOf] at hresolve
    simp only [fetch, hresolve, hwithin, if_true, hlocate, Option.map_some, Option.getD_some, hfile]

theorem Reads.unique (h : r.Reads path place) (h' : r.Reads path place') : place = place' := by
  obtain ⟨target, hresolve, -, hfollow⟩ := h
  obtain ⟨target', hresolve', -, hfollow'⟩ := h'
  obtain rfl := Except.ok.inj (hresolve.symm.trans hresolve')
  exact Except.ok.inj (hfollow.symm.trans hfollow')

theorem Reads.straight (h : r.Reads path place) : Straight r.tree place := by
  obtain ⟨target, -, -, hfollow⟩ := h
  obtain ⟨n, hleads⟩ := leads_of_follow hfollow
  exact hleads.straight (straight_nil r.tree)

theorem isAbsolute_pathOf (hroot : r.root.isAbsolute = true) (path : String) :
    (r.pathOf path).isAbsolute = true := by
  rw [pathOf, Path.append]
  split
  · next h => exact h
  · exact hroot

theorem Reads.of_leads (hroot : r.root.isAbsolute = true) (hreads : r.Reads path place)
    (hleads : Leads r.tree [] (r.pathOf path).names place') : place = place' ∧ r.Inside place' := by
  obtain ⟨target, hresolve, hwithin, hfollow⟩ := hreads
  obtain ⟨n, hn⟩ := hleads
  have hplace : Straight r.tree place' := hn.straight (straight_nil r.tree)
  rw [resolve_of_leads (isAbsolute_pathOf hroot path) ⟨n, hn⟩] at hresolve
  split at hresolve
  · obtain rfl := Except.ok.inj hresolve
    exact ⟨hplace.follow_eq hfollow, (Path.isWithin_iff.1 hwithin).2⟩
  · exact absurd hresolve (by simp)

theorem reads_of_strays_iff (hroot : r.root.isAbsolute = true) {left : Path}
    (hstrays : Strays r.tree [] [] (r.pathOf path).names left) :
    r.Reads path place ↔ (r.pathOf path).isNameable = true ∧
      Path.isWithin r.root (left.straightened []) = true ∧
      r.tree.follow .find [] (left.straightened []) = .ok place := by
  constructor
  · rintro ⟨target, hresolve, hwithin, hfollow⟩
    obtain ⟨hname, rfl, -⟩ := (resolve_of_strays (isAbsolute_pathOf hroot path) hstrays).1 hresolve
    exact ⟨hname, hwithin, hfollow⟩
  · rintro ⟨hname, hwithin, hfollow⟩
    refine ⟨_, (resolve_of_strays (isAbsolute_pathOf hroot path) hstrays).2 ⟨hname, rfl, ?_⟩,
      hwithin, hfollow⟩
    rw [hfollow]
    simp

theorem confined_iff (hroot : r.root.isAbsolute = true) (path : String) :
    r.Confined path ↔ ¬ r.Escapes path := by
  constructor
  · rintro hconfined ⟨left, place, text, hescape⟩
    have hreads : r.Reads path place := (reads_of_strays_iff hroot hescape.strays).2
      ⟨hescape.nameable, hescape.within, hescape.follow⟩
    have hfetch := (fetch_eq_ok_iff hescape.text_ne).2 ⟨place, hreads, hescape.holds⟩
    obtain ⟨place', hreads', -, hinside, -⟩ := hconfined text hfetch hescape.text_ne
    obtain rfl := hreads.unique hreads'
    exact hescape.outside hinside
  · intro hescapes text hfetch htext
    obtain ⟨place, hreads, hholds⟩ := (fetch_eq_ok_iff htext).1 hfetch
    refine ⟨place, hreads, hreads.straight, ?_, hholds⟩
    rcases leads_or_strays r.tree (r.pathOf path).names with ⟨place', hleads⟩ | ⟨left, hstrays⟩
    · obtain ⟨rfl, hinside⟩ := hreads.of_leads hroot hleads
      exact hinside
    · by_contra houtside
      obtain ⟨hname, hwithin, hfollow⟩ := (reads_of_strays_iff hroot hstrays).1 hreads
      exact hescapes ⟨left, place, text,
        ⟨hname, hstrays, hwithin, hfollow, houtside, htext, hholds⟩⟩

end

theorem isAbsolute_root {tree : FileTree} {standing : Place} {home : Option String}
    {directory : String} {excludePaths : List String} {r : LocalRepository}
    (h : ofPath tree standing home directory excludePaths = .ok r) : r.root.isAbsolute = true := by
  obtain ⟨root, hresolve, rfl⟩ := map_eq_ok_iff.1 h
  rw [resolveFromHome] at hresolve
  split at hresolve
  · exact isAbsolute_of_resolve hresolve
  · exact absurd hresolve (by simp)

theorem fetch_confined_iff {tree : FileTree} {standing : Place} {home : Option String}
    {directory : String} {excludePaths : List String} {r : LocalRepository}
    (hroot : ofPath tree standing home directory excludePaths = .ok r) (path : String) :
    (r.Confined path ↔ ¬ r.Escapes path) ∧
      ∀ place, Leads r.tree [] (r.pathOf path).names place →
        ∀ text, r.fetch path = .ok text → text ≠ "" →
          r.Inside place ∧ HoldsText r.tree place text := by
  refine ⟨confined_iff (isAbsolute_root hroot) path, fun place hleads text hfetch htext => ?_⟩
  obtain ⟨place', hreads, hholds⟩ := (fetch_eq_ok_iff htext).1 hfetch
  obtain ⟨rfl, hinside⟩ := hreads.of_leads (isAbsolute_root hroot) hleads
  exact ⟨hinside, hholds⟩

def linkedShop : LocalRepository where
  tree := .directory [("shop", .directory
    [("latest", .link "models"),
      ("models", .directory [("user.js", .file (Utf8.encode "new Schema()".toList))])])]
  root := Path.ofPlace ["shop"]

theorem linkedShop_confined :
    ofPath linkedShop.tree [] none "/shop" [] = .ok linkedShop ∧
      linkedShop.Confined "latest/user.js" ∧
      linkedShop.fetch "latest/user.js" = .ok "new Schema()" ∧
      linkedShop.Inside ["shop", "models", "user.js"] ∧
      HoldsText linkedShop.tree ["shop", "models", "user.js"] "new Schema()" := by
  have hroot : ofPath linkedShop.tree [] none "/shop" [] = .ok linkedShop := by rfl
  have hreads : linkedShop.Reads "latest/user.js" ["shop", "models", "user.js"] :=
    ⟨Path.ofPlace ["shop", "models", "user.js"], by rfl, by rfl, by rfl⟩
  have hfetch : linkedShop.fetch "latest/user.js" = .ok "new Schema()" :=
    (fetch_eq_ok_iff (by decide)).2 ⟨_, hreads, _, rfl, Utf8.decode_encode _⟩
  have hleads : Leads linkedShop.tree [] (linkedShop.pathOf "latest/user.js").names
      ["shop", "models", "user.js"] := leads_of_follow (by rfl)
  obtain ⟨hiff, hplace⟩ := fetch_confined_iff hroot "latest/user.js"
  obtain ⟨hinside, hholds⟩ := hplace _ hleads _ hfetch (by decide)
  refine ⟨hroot, hiff.2 ?_, hfetch, hinside, hholds⟩
  rintro ⟨left, place, text, hescape⟩
  exact hescape.strays.not_leads hleads

def tangledShop : LocalRepository where
  tree := .directory
    [("secret.txt", .file (Utf8.encode "secret".toList)),
      ("shop", .directory [("loop", .link "loop"), ("out", .link "../secret.txt")])]
  root := Path.ofPlace ["shop"]

theorem tangledShop_escapes :
    ofPath tangledShop.tree [] none "/shop" [] = .ok tangledShop ∧
      tangledShop.fetch "loop/../out" = .ok "secret" ∧
      ¬ ∃ place, tangledShop.Inside place ∧ HoldsText tangledShop.tree place "secret" := by
  have hreads : tangledShop.Reads "loop/../out" ["secret.txt"] :=
    ⟨Path.ofPlace ["shop", "out"], by decide +kernel, by rfl, by rfl⟩
  refine ⟨by rfl, (fetch_eq_ok_iff (by decide)).2 ⟨_, hreads, _, rfl, Utf8.decode_encode _⟩, ?_⟩
  rintro ⟨place, ⟨names, rfl⟩, content, hfind, -⟩
  have hshop : tangledShop.tree.find? tangledShop.root.names =
      some (.directory [("loop", .link "loop"), ("out", .link "../secret.txt")]) := rfl
  rw [find?_append, hshop, Option.bind_some] at hfind
  -- Nothing but links is in the shop.
  cases names with
  | nil => exact absurd hfind (by simp [find?])
  | cons name names =>
      obtain ⟨u, hchild, hrest⟩ := Option.bind_eq_some_iff.1 hfind
      obtain ⟨target, rfl⟩ : ∃ target, u = .link target := by
        simp only [child?, List.lookup_cons] at hchild
        split at hchild
        · exact ⟨_, (Option.some.inj hchild).symm⟩
        · split at hchild
          · exact ⟨_, (Option.some.inj hchild).symm⟩
          · exact absurd hchild (by simp)
      cases names <;> exact absurd hrest (by simp [find?, child?])

end LocalRepository

end SchemaDiagram
