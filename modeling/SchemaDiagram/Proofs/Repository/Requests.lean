import SchemaDiagram.Proofs.Encoding.Percent
import SchemaDiagram.Proofs.Http.Urls
import SchemaDiagram.Repository.GitHub

/-!
What the URL of a request says: it is read back to the repository, the branch and the file that are
asked for, and no other part of it can be taken for these.
-/

namespace SchemaDiagram

open SchemaDiagram.Text

namespace GitHubRepository

inductive Asked where
  | listing
  | file (path : String)
  deriving DecidableEq, Repr

structure Target where
  owner : String
  name : String
  branch : String
  asked : Asked
  deriving DecidableEq, Repr

def target (r : GitHubRepository) (a : Asked) : Target :=
  ⟨r.owner, r.name, r.branch, a⟩

def url (r : GitHubRepository) : Asked → String
  | .listing => r.treeUrl
  | .file path => r.contentUrl path

def parted (c : Char) (cs : List Char) : List Char × List Char :=
  (cs.takeWhile (· ≠ c), (cs.dropWhile (· ≠ c)).drop 1)

def unquoted? (cs : List Char) : Option String :=
  (Utf8.decode (Percent.unquoteBytes cs)).toOption.map String.ofList

def askedOf? (cs : List Char) : Option (String × Asked) :=
  match literal? "git/trees/" cs with
  | some cs => do
      let branch ← unquoted? (parted '?' cs).1
      return (branch, .listing)
  | none => do
      let cs ← literal? "contents/" cs
      let path ← unquoted? (parted '?' cs).1
      let branch ← (literal? "ref=" (parted '?' cs).2).bind unquoted?
      return (branch, .file path)

/-- The target that the URL of a request names, for requests that are sent under a given URL. -/
def Target.ofUrl? (apiUrl url : String) : Option Target := do
  let front := String.ofList (Http.bareFront (dropRightWhile (· = '/') apiUrl.toList)) ++ "/repos/"
  let cs ← literal? front url.toList
  let (owner, cs) := parted '/' cs
  let (name, cs) := parted '/' cs
  let (branch, asked) ← askedOf? cs
  return ⟨String.ofList owner, String.ofList name, branch, asked⟩

section

variable {cs tail : List Char} {c : Char}

theorem parted_append (h : c ∉ cs) (tail : List Char) : parted c (cs ++ c :: tail) = (cs, tail) := by
  have hcs : ∀ d ∈ cs, decide (d ≠ c) = true := by
    intro d hd
    rw [decide_eq_true_eq]
    rintro rfl
    exact h hd
  rw [parted, List.takeWhile_append_of_pos hcs, List.dropWhile_append_of_pos hcs]
  simp

theorem unquoted?_quoted {safe : List Char} (h : '%' ∉ safe) (s : String) :
    unquoted? (quoted safe s).toList = some s := by
  rw [unquoted?, quoted, String.toList_ofList, Percent.decode_unquoteBytes_quote h]
  simp [Except.toOption]

theorem notMem_quoted {safe : List Char} (hpercent : c ≠ '%')
    (hreserved : Percent.isUnreserved c = false) (hsafe : c ∉ safe) (s : String) :
    c ∉ (quoted safe s).toList := by
  rw [quoted, String.toList_ofList]
  exact Percent.notMem_quote hpercent hreserved hsafe

theorem isBlank_of_isUnreserved (h : Percent.isUnreserved c = true) : isBlank c = false := by
  simp only [Percent.isUnreserved, Bool.or_eq_true, decide_eq_true_eq] at h
  rcases h with (((hword | rfl) | rfl) | rfl) | rfl
  · have hascii : c.toNat < 0x80 := by
      have hranges := isAlphanum_iff.1 hword
      omega
    exact isBlank_of_isWord (isWord_of_isAlphanum hascii hword)
  all_goals decide

def frontOf (apiUrl : String) : List Char :=
  dropRightWhile (· = '/') apiUrl.toList

def Asked.mark : Asked → String
  | .listing => "git/trees/"
  | .file _ => "contents/"

def address (r : GitHubRepository) : Asked → String
  | .listing => quoted [] r.branch
  | .file path => quoted ['/'] path

def query (r : GitHubRepository) : Asked → String
  | .listing => "recursive=1"
  | .file _ => "ref=" ++ quoted [] r.branch

def behindFront (r : GitHubRepository) (a : Asked) : List Char :=
  '/' :: ("repos/".toList ++ (r.owner.toList ++ '/' :: (r.name.toList ++
    '/' :: (a.mark.toList ++ ((r.address a).toList ++ '?' :: (r.query a).toList)))))

theorem toList_baseUrl (r : GitHubRepository) : r.baseUrl.toList =
    frontOf r.apiUrl ++ '/' :: ("repos/".toList ++ (r.owner.toList ++ '/' :: r.name.toList)) := by
  have hrepos : "/repos/".toList = '/' :: "repos/".toList := rfl
  have hslash : "/".toList ++ r.name.toList = '/' :: r.name.toList := rfl
  simp only [baseUrl, String.toList_append, String.toList_ofList, List.append_assoc, hrepos, hslash,
    List.cons_append, frontOf]

theorem toList_url_eq (r : GitHubRepository) (a : Asked) : (r.url a).toList =
    r.baseUrl.toList ++
      '/' :: (a.mark.toList ++ ((r.address a).toList ++ '?' :: (r.query a).toList)) := by
  cases a with
  | listing =>
      have hmark : "/git/trees/".toList = '/' :: "git/trees/".toList := rfl
      have hquery : "?recursive=1".toList = '?' :: "recursive=1".toList := rfl
      simp only [url, treeUrl, Asked.mark, address, query, String.toList_append, List.append_assoc,
        hmark, hquery, List.cons_append]
  | file path =>
      have hmark : "/contents/".toList = '/' :: "contents/".toList := rfl
      have hquery : "?ref=".toList = '?' :: "ref=".toList := rfl
      simp only [url, contentUrl, Asked.mark, address, query, String.toList_append, List.append_assoc,
        hmark, hquery, List.cons_append]

theorem toList_url (r : GitHubRepository) (a : Asked) :
    (r.url a).toList = frontOf r.apiUrl ++ r.behindFront a := by
  rw [toList_url_eq, toList_baseUrl, behindFront]
  simp only [List.append_assoc, List.cons_append]

theorem isReserved_of_mem (h : c ∈ ['?', '#', '>']) : c ≠ '%' ∧ Percent.isUnreserved c = false := by
  simp only [List.mem_cons, List.not_mem_nil, or_false] at h
  rcases h with rfl | rfl | rfl <;> decide

theorem notMem_mark (h : c ∈ ['?', '#', '>']) (a : Asked) : c ∉ a.mark.toList := by
  simp only [List.mem_cons, List.not_mem_nil, or_false] at h
  cases a with
  | listing =>
      change c ∉ "git/trees/".toList
      rcases h with rfl | rfl | rfl <;> decide
  | file path =>
      change c ∉ "contents/".toList
      rcases h with rfl | rfl | rfl <;> decide

theorem notMem_address (h : c ∈ ['?', '#', '>']) (r : GitHubRepository) (a : Asked) :
    c ∉ (r.address a).toList := by
  obtain ⟨hpercent, hreserved⟩ := isReserved_of_mem h
  cases a with
  | listing => exact notMem_quoted hpercent hreserved List.not_mem_nil r.branch
  | file path =>
      refine notMem_quoted hpercent hreserved ?_ path
      rintro hslash
      obtain rfl := List.mem_singleton.1 hslash
      exact absurd h (by decide)

theorem notMem_query (h : c ∈ ['?', '#', '>']) (r : GitHubRepository) (a : Asked) :
    c ∉ (r.query a).toList := by
  obtain ⟨hpercent, hreserved⟩ := isReserved_of_mem h
  simp only [List.mem_cons, List.not_mem_nil, or_false] at h
  cases a with
  | listing =>
      rw [query]
      rcases h with rfl | rfl | rfl <;> decide
  | file path =>
      rw [query, String.toList_append]
      refine List.not_mem_append ?_ (notMem_quoted hpercent hreserved List.not_mem_nil r.branch)
      rcases h with rfl | rfl | rfl <;> decide

theorem isBlank_of_mem_quoted {safe : List Char} (hsafe : ∀ d ∈ safe, isBlank d = false) {text : String}
    (h : c ∈ (quoted safe text).toList) : isBlank c = false := by
  rw [quoted, String.toList_ofList] at h
  rcases Percent.mem_quote h with rfl | hunreserved | hmem
  · decide
  · exact isBlank_of_isUnreserved hunreserved
  · exact hsafe c hmem

theorem isBlank_of_mem_query {r : GitHubRepository} {a : Asked} (h : c ∈ (r.query a).toList) :
    isBlank c = false := by
  have hlisting : ∀ d ∈ "recursive=1".toList, isBlank d = false := by decide
  have hfile : ∀ d ∈ "ref=".toList, isBlank d = false := by decide
  cases a with
  | listing => exact hlisting c h
  | file path =>
      rw [query, String.toList_append] at h
      rcases List.mem_append.1 h with h | h
      · exact hfile c h
      · exact isBlank_of_mem_quoted (fun _ hd => absurd hd List.not_mem_nil) h

theorem keepsEnd_behindFront (r : GitHubRepository) (a : Asked) : Http.KeepsEnd (r.behindFront a) := by
  have hne : (r.query a).toList ≠ [] := by
    cases a with
    | listing =>
        change "recursive=1".toList ≠ []
        decide
    | file path => simp [query]
  intro c hc
  have hlast : (r.behindFront a).getLast? = (r.query a).toList.getLast? := by
    obtain ⟨d, ds, hds⟩ := List.exists_cons_of_ne_nil hne
    simp [behindFront, hds, List.getLast?_append, List.getLast?_cons]
  rw [hlast] at hc
  have hmem : c ∈ (r.query a).toList := List.mem_of_getLast? hc
  refine ⟨isBlank_of_mem_query hmem, ?_⟩
  rintro rfl
  exact notMem_query (by decide) r a hmem

theorem toList_requested {r : GitHubRepository} {a : Asked} {q : Http.Request}
    (h : r.request? (r.url a) = some q) :
    q.url.toList = Http.bareFront (frontOf r.apiUrl) ++ r.behindFront a := by
  have hurl : r.url a = String.ofList (frontOf r.apiUrl ++ r.behindFront a) := by
    rw [← toList_url, String.ofList_toList]
  rw [Http.request?_url h, hurl, behindFront, Http.bareUrl_append (r.keepsEnd_behindFront a),
    String.toList_ofList]

theorem mem_withoutOuterSlashes (hc : c ≠ '/') : c ∈ withoutOuterSlashes cs ↔ c ∈ cs := by
  have hdrop : ∀ ds : List Char, c ∈ ds.dropWhile (fun d => decide (d = '/')) ↔ c ∈ ds := by
    intro ds
    induction ds with
    | nil => rfl
    | cons d ds ih =>
        by_cases hd : d = '/'
        · subst hd
          rw [List.dropWhile_cons_of_pos (by decide), ih, List.mem_cons]
          exact (or_iff_right hc).symm
        · rw [List.dropWhile_cons_of_neg (by simpa using hd)]
  rw [withoutOuterSlashes, dropRightWhile, List.mem_reverse, hdrop, List.mem_reverse, hdrop]

theorem names_of_slug {slug owner name : String} (h : ownerAndName? slug = some (owner, name)) :
    '/' ∉ owner.toList ∧ '/' ∉ name.toList ∧
      ∀ c, isBlank c = false → c ≠ '/' → (c ∈ slug.toList ↔ c ∈ owner.toList ∨ c ∈ name.toList) := by
  rw [ownerAndName?] at h
  split at h
  · next first second hsplit =>
      split at h
      · exact absurd h (by simp)
      · obtain ⟨rfl, rfl⟩ := Prod.mk.inj (Option.some.inj h)
        have hjoin := joinWith_splitAt '/' (withoutOuterSlashes (trim slug.toList))
        rw [hsplit] at hjoin
        have hpieces : ∀ piece ∈ [first, second], '/' ∉ piece := by
          rw [← hsplit]
          exact fun piece => notMem_of_mem_splitAt
        simp only [String.toList_ofList]
        refine ⟨hpieces first (by simp), hpieces second (by simp), ?_⟩
        intro c hblank hslash
        rw [← mem_trim_iff hblank, ← mem_withoutOuterSlashes hslash, ← hjoin]
        simp [joinWith, hslash]
  · exact absurd h (by simp)

theorem askedOf?_behindName (r : GitHubRepository) (a : Asked) :
    askedOf? (a.mark.toList ++ ((r.address a).toList ++ '?' :: (r.query a).toList)) =
      some (r.branch, a) := by
  have hparted : parted '?' ((r.address a).toList ++ '?' :: (r.query a).toList) =
      ((r.address a).toList, (r.query a).toList) :=
    parted_append (notMem_address (by decide) r a) _
  have hbranch : unquoted? (quoted [] r.branch).toList = some r.branch :=
    unquoted?_quoted List.not_mem_nil r.branch
  cases a with
  | listing =>
      have hmark : literal? "git/trees/" (Asked.listing.mark.toList ++
          ((r.address .listing).toList ++ '?' :: (r.query .listing).toList)) =
            some ((r.address .listing).toList ++ '?' :: (r.query .listing).toList) :=
        literal?_append _ _
      rw [askedOf?, hmark]
      dsimp only
      rw [hparted, address, hbranch]
      rfl
  | file path =>
      have hother (rest tail : List Char) :
          "git/trees/".toList ++ rest ≠ "contents/".toList ++ tail := by
        intro heq
        have hfirst : "git/trees/".toList = 'g' :: "it/trees/".toList := rfl
        have hsecond : "contents/".toList = 'c' :: "ontents/".toList := rfl
        rw [hfirst, hsecond, List.cons_append, List.cons_append] at heq
        exact absurd (List.cons.inj heq).1 (by decide)
      have hnone : literal? "git/trees/" ((Asked.file path).mark.toList ++
          ((r.address (.file path)).toList ++ '?' :: (r.query (.file path)).toList)) = none := by
        refine Option.eq_none_iff_forall_ne_some.2 fun rest hrest => ?_
        exact hother rest _ (literal?_eq_some_iff.1 hrest)
      have hmark : literal? "contents/" ((Asked.file path).mark.toList ++
          ((r.address (.file path)).toList ++ '?' :: (r.query (.file path)).toList)) =
            some ((r.address (.file path)).toList ++ '?' :: (r.query (.file path)).toList) :=
        literal?_append _ _
      have hpath : unquoted? (r.address (.file path)).toList = some path :=
        unquoted?_quoted (by decide) path
      have hquery : literal? "ref=" (r.query (.file path)).toList =
          some (quoted [] r.branch).toList := by
        rw [query, String.toList_append]
        exact literal?_append _ _
      rw [askedOf?, hnone]
      dsimp only
      rw [hmark, Option.bind_eq_bind, Option.bind_some, hparted, hpath, hquery, Option.bind_some,
        hbranch]
      rfl

theorem ofUrl?_requested {r : GitHubRepository} {a : Asked} {q : Http.Request}
    (howner : '/' ∉ r.owner.toList) (hname : '/' ∉ r.name.toList)
    (h : r.request? (r.url a) = some q) : Target.ofUrl? r.apiUrl q.url = some (r.target a) := by
  have hfront : literal? (String.ofList (Http.bareFront (frontOf r.apiUrl)) ++ "/repos/") q.url.toList =
      some (r.owner.toList ++ '/' :: (r.name.toList ++ '/' :: (a.mark.toList ++
        ((r.address a).toList ++ '?' :: (r.query a).toList)))) := by
    rw [literal?_eq_some_iff, toList_requested h, String.toList_append, String.toList_ofList,
      List.append_assoc]
    rfl
  rw [Target.ofUrl?, ← frontOf]
  dsimp only
  rw [hfront, Option.bind_eq_bind, Option.bind_some, parted_append howner, parted_append hname,
    askedOf?_behindName]
  simp [target]

theorem count_requested {r : GitHubRepository} {a : Asked} {q : Http.Request}
    (hapi : c ∉ r.apiUrl.toList) (hc : c = '?' ∨ c = '#') (h : r.request? (r.url a) = some q) :
    q.url.toList.count c = r.owner.toList.count c + r.name.toList.count c + ['?'].count c := by
  have hreserved : c ∈ ['?', '#', '>'] := by
    rcases hc with rfl | rfl <;> decide
  have hfront : (Http.bareFront (frontOf r.apiUrl)).count c = 0 := by
    refine List.count_eq_zero.2 fun hmem => hapi ?_
    have hend := List.mem_reverse.1 (Http.mem_of_mem_bareFront hmem)
    exact List.mem_reverse.1 ((List.dropWhile_sublist _).subset hend)
  have hrepos : "repos/".toList.count c = 0 := by
    rcases hc with rfl | rfl <;> decide
  have hslash (s : List Char) : ('/' :: s).count c = s.count c := by
    refine List.count_cons_of_ne ?_
    rcases hc with rfl | rfl <;> decide
  have hquestion (s : List Char) : ('?' :: s).count c = s.count c + ['?'].count c := by
    rw [List.count_cons, List.count_cons, List.count_nil, Nat.zero_add]
  have hasked := List.count_eq_zero.2 (notMem_mark hreserved a)
  have haddress := List.count_eq_zero.2 (notMem_address hreserved r a)
  have hquery := List.count_eq_zero.2 (notMem_query hreserved r a)
  rw [toList_requested h, behindFront]
  simp only [List.count_append, hslash, hfront, hrepos, hasked, haddress]
  rw [hquestion, hquery]
  omega

theorem request_names_target [Platform] {slug : String} {r : GitHubRepository} {a : Asked}
    {q : Http.Request}
    (hslug : ownerAndName? slug = some (r.owner, r.name)) (hmark : '?' ∉ r.apiUrl.toList)
    (hhash : '#' ∉ r.apiUrl.toList) (hq : r.request? (r.url a) = some q) :
    (q.url.toList.count '?' = 1 ∧ '#' ∉ q.url.toList ↔ '?' ∉ slug.toList ∧ '#' ∉ slug.toList) ∧
    Target.ofUrl? r.apiUrl q.url = some (r.target a) ∧
    (∀ (slug' : String) (r' : GitHubRepository) (a' : Asked) (q' : Http.Request),
      r'.apiUrl = r.apiUrl → ownerAndName? slug' = some (r'.owner, r'.name) →
        r'.request? (r'.url a') = some q' → q'.url = q.url → r'.target a' = r.target a) ∧
    ∀ network network' : Http.Network, network q = network' q →
      document network r (r.url a) = document network' r (r.url a) := by
  obtain ⟨howner, hname, hmem⟩ := names_of_slug hslug
  have htarget := ofUrl?_requested howner hname hq
  refine ⟨?_, htarget, ?_, ?_⟩
  · have hquestions := count_requested hmark (.inl rfl) hq
    have hhashes := count_requested hhash (.inr rfl) hq
    rw [← List.count_eq_zero (a := '#'), hquestions, hhashes, hmem '?' (by decide) (by decide),
      hmem '#' (by decide) (by decide)]
    simp only [not_or, ← List.count_eq_zero]
    have hself : ['?'].count '?' = 1 := rfl
    have hother : ['?'].count '#' = 0 := rfl
    rw [hself, hother]
    omega
  · intro slug' r' a' q' hapi hslug' hq' hurl
    obtain ⟨howner', hname', -⟩ := names_of_slug hslug'
    have htarget' := ofUrl?_requested howner' hname' hq'
    rw [hapi, hurl, htarget] at htarget'
    exact (Option.some.inj htarget').symm
  · intro network network' hsame
    have hget : Http.get network (r.url a) r.headers r.requestTimeout =
        Http.get network' (r.url a) r.headers r.requestTimeout := by
      refine Http.get_congr fun other hother => ?_
      obtain rfl := Option.some.inj (hq.symm.trans hother)
      exact hsame
    rw [document, document, hget]

end

def shop : GitHubRepository :=
  { owner := "acme", name := "shop", branch := "fix/#1?" }

def shopRequest : Http.Request :=
  { url := "https://api.github.com/repos/acme/shop/contents/a%20b/%C3%BCser.js?ref=fix%2F%231%3F"
    headers := shop.headers
    timeout := shop.requestTimeout }

theorem shop_request_names_target :
    ownerAndName? " /acme/shop/" = some (shop.owner, shop.name) ∧ '?' ∉ shop.apiUrl.toList ∧
    '#' ∉ shop.apiUrl.toList ∧ shop.request? (shop.url (.file "a b/üser.js")) = some shopRequest ∧
    shopRequest.url.toList.count '?' = 1 ∧ '#' ∉ shopRequest.url.toList ∧
    Target.ofUrl? shop.apiUrl shopRequest.url =
      some ⟨"acme", "shop", "fix/#1?", .file "a b/üser.js"⟩ := by
  have hslug : ownerAndName? " /acme/shop/" = some (shop.owner, shop.name) := by decide
  have hmark : '?' ∉ shop.apiUrl.toList := by decide
  have hhash : '#' ∉ shop.apiUrl.toList := by decide
  have hrequest : shop.request? (shop.url (.file "a b/üser.js")) = some shopRequest := by
    decide +kernel
  obtain ⟨hmarks, htarget, -⟩ := request_names_target hslug hmark hhash hrequest
  obtain ⟨hone, hnone⟩ := hmarks.2 ⟨by decide, by decide⟩
  exact ⟨hslug, hmark, hhash, hrequest, hone, hnone, htarget⟩

theorem questioned_owner_unquoted :
    ownerAndName? "a?b/c" = some ("a?b", "c") ∧
    ∃ q, request? { owner := "a?b", name := "c" } (treeUrl { owner := "a?b", name := "c" }) = some q ∧
      q.url = "https://api.github.com/repos/a?b/c/git/trees/main?recursive=1" ∧
      ¬ (q.url.toList.count '?' = 1 ∧ '#' ∉ q.url.toList) := by
  refine ⟨by decide, ⟨_, headers { owner := "a?b", name := "c" }, .ofInt 30⟩, ?_, rfl, by decide⟩
  decide +kernel

end GitHubRepository

end SchemaDiagram
