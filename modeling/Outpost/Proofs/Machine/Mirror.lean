import Outpost.Machine.SshClient
import Outpost.Proofs.Group.Members
import Outpost.Proofs.Path
import Outpost.Proofs.Run

/-!
# A directory tree and its copy

A tree is a listing with a listing below each of its directories. Its nodes have an order: that of
the listings, where everything below a directory comes between the directory and what is listed
behind it. An upload of the tree goes through them in this order (`upload_mirrors_tree`). A
directory is made at its place in the copy, and only then listed; a regular file is copied to its
place; for anything else nothing is done. The first failure ends this, and it is the failure of the
upload. The file session is closed once, and last.

The upload knows a place as two paths that it extends by a name at every step down. That these are
the paths of the place below the two directories is `join_pathBelow`. Which tree there is shows in
the listings that were received, so the theorem is about the tree that was shown: no listing is
expected of a directory that was not reached, or could not be listed. No tree is too deep for this
(`exists_upload`).

## Contents

* `SshClient.Tree`, `SshClient.Tree.nodes`: trees and the order of their nodes.
* `SshClient.Errand`: what an upload is on its way for. `SshClient.Node.errands`,
  `SshClient.Tree.walk`: what there is to do about a node, and about a tree.
* `SshClient.Shows`: listings of a tree.
* `SshClient.Goes`: errands that are run one after another, up to the first that fails.
* `SshClient.Follows`: attempts that run known errands. `SshClient.follows_copyEntries`: copying a
  listing is one of these.
* `SshClient.Mirrors`, `SshClient.upload_mirrors_tree`.
* `SshClient.exists_upload`: every tree can be uploaded.
-/

namespace Outpost

namespace SshClient

/-! ## Trees -/

/-- What is in a directory, in the order in which it is listed. -/
inductive Tree where
  | nil
  | directory (name : String) (below rest : Tree)
  | file (name : String) (rest : Tree)
  | other (name : String) (rest : Tree)

/-- Something in a `Tree`, at the place that is given by the names on the way to it. -/
inductive Node where
  | directory (place : List String) (below : Tree)
  | file (place : List String)
  | other (place : List String)

/-- An `Entry` without the height that it came with. -/
def Entry.flat {Height : Type} : Entry Height → Entry Unit
  | .directory name _ => .directory name ()
  | .file name => .file name
  | .other name => .other name

namespace Tree

/-- The listing of the directory of a `Tree` itself. -/
def entries : Tree → List (Entry Unit)
  | .nil => []
  | .directory name _ rest => .directory name () :: rest.entries
  | .file name rest => .file name :: rest.entries
  | .other name rest => .other name :: rest.entries

/-- Everything in a tree at some `place`: a directory comes before everything below it, and
everything below it before what is listed behind it. -/
def nodes (place : List String) : Tree → List Node
  | .nil => []
  | .directory name below rest =>
    .directory (place ++ [name]) below :: (below.nodes (place ++ [name]) ++ rest.nodes place)
  | .file name rest => .file (place ++ [name]) :: rest.nodes place
  | .other name rest => .other (place ++ [name]) :: rest.nodes place

/-- No name has a slash in it. -/
def Plain : Tree → Prop
  | .nil => True
  | .directory name below rest => '/' ∉ name.toList ∧ below.Plain ∧ rest.Plain
  | .file name rest => '/' ∉ name.toList ∧ rest.Plain
  | .other name rest => '/' ∉ name.toList ∧ rest.Plain

end Tree

/-- The path of a `place` below a directory. -/
def pathBelow (directory : String) (place : List String) : String :=
  if place = [] then directory else Path.join (directory :: place)

/-- One step down from a `place`, by `Path.join`. -/
theorem join_pathBelow (directory : String) (place : List String) {name : String}
    (hname : '/' ∉ name.toList) :
    Path.join [pathBelow directory place, name] = pathBelow directory (place ++ [name]) := by
  have hfilled : place ++ [name] ≠ [] := List.append_ne_nil_of_right_ne_nil _ (List.cons_ne_nil _ _)
  rw [pathBelow, pathBelow, if_neg hfilled]
  by_cases hplace : place = []
  · subst hplace
    rfl
  · rw [if_neg hplace]
    exact Path.join_join (directory :: place) hname

/-! ## Errands -/

/-- Something that an `upload` has to do once the file session is open. -/
inductive Errand where
  /-- Lists a directory here. -/
  | list (path : String)
  /-- Makes a directory there. -/
  | makeDirectory (path : String)
  /-- Copies a file from here to there. -/
  | putFile (source destination : String)

/-- Whether this is an operation of the file session. -/
def Errand.isOperation : Errand → Bool
  | .list _ => false
  | .makeDirectory _ | .putFile .. => true

/-- What is to be done about a `Node` before the next one. -/
def Node.errands (source destination : String) : Node → List Errand
  | .directory place _ =>
    [.makeDirectory (pathBelow destination place), .list (pathBelow source place)]
  | .file place => [.putFile (pathBelow source place) (pathBelow destination place)]
  | .other _ => []

/-- The operation of the file session that a `Node` needs. -/
def Node.operation? (source destination : String) : Node → Option Errand
  | .directory place _ => some (.makeDirectory (pathBelow destination place))
  | .file place => some (.putFile (pathBelow source place) (pathBelow destination place))
  | .other _ => none

/-- Everything that is to be done about a `Tree`, node by node. -/
def Tree.walk (tree : Tree) (source destination : String) : List Errand :=
  .list source :: (tree.nodes []).flatMap (Node.errands source destination)

/-- The operations of the file session that a `Tree` needs. -/
def Tree.operations (tree : Tree) (source destination : String) : List Errand :=
  (tree.nodes []).filterMap (Node.operation? source destination)

theorem Tree.filter_walk (tree : Tree) (source destination : String) :
    (tree.walk source destination).filter Errand.isOperation
      = tree.operations source destination := by
  have hnodes (nodes : List Node) :
      (nodes.flatMap (Node.errands source destination)).filter Errand.isOperation
        = nodes.filterMap (Node.operation? source destination) := by
    induction nodes with
    | nil => rfl
    | cons node nodes ih =>
      rw [List.flatMap_cons, List.filter_append, ih]
      cases node <;> rfl
  exact hnodes (tree.nodes [])

/-- The `Errand` that a request is. -/
def errand? : Request → Option Errand
  | .list path => some (.list path)
  | .listBelow path _ => some (.list path)
  | .makeDirectory path => some (.makeDirectory path)
  | .putFile source destination => some (.putFile source destination)
  | _ => none

/-- How an `Errand` ended. -/
def outcome : Program.Exchange interface → Except Fault Unit
  | ⟨.list _, reply⟩ => Except.map (fun _ => ()) (reply : Except Fault (List (Entry Nat)))
  | ⟨.listBelow _ height, reply⟩ =>
    Except.map (fun _ => ()) (reply : Except Fault (List (Entry (Fin height))))
  | ⟨.makeDirectory _, reply⟩ => reply
  | ⟨.putFile .., reply⟩ => reply
  | _ => .ok ()

/-! ## Listings -/

/-- The directory that was listed, and what was listed of it. -/
def shown? : Program.Exchange interface → Option (String × List (Entry Unit))
  | ⟨.list path, .ok entries⟩ =>
    some (path, (entries : List (Entry Nat)).map Entry.flat)
  | ⟨.listBelow path height, .ok entries⟩ =>
    some (path, (entries : List (Entry (Fin height))).map Entry.flat)
  | _ => none

/-- Whatever was `shown?` of a directory is what there is in it. -/
def ShowsAt (exchanges : List (Program.Exchange interface)) (path : String) (tree : Tree) : Prop :=
  ∀ x ∈ exchanges, ∀ entries, shown? x = some (path, entries) → entries = tree.entries

/-- Whatever was `shown?` is what there is in the directories of a tree. -/
structure Shows (exchanges : List (Program.Exchange interface)) (source : String) (tree : Tree) :
    Prop where
  top : ShowsAt exchanges source tree
  below {place : List String} {below : Tree} : .directory place below ∈ tree.nodes [] →
    ShowsAt exchanges (pathBelow source place) below

/-! ## Going on errands -/

/-- Errands that are run one after another, up to the first that fails. -/
def Goes (errands : List Errand) (walked : List (Program.Exchange interface))
    (result : Except Fault Unit) : Prop :=
  ∃ results, Group.InTurn (fun x : Program.Exchange interface => errand? x.request)
    (fun x ending => outcome x = ending) (errands.map some) walked results ∧
    result = results.map fun _ => ()

section Goes

variable {errands more : List Errand} {walked later : List (Program.Exchange interface)}
  {result : Except Fault Unit}

theorem goes_nil : Goes [] [] (.ok ()) :=
  ⟨.ok [], .done, rfl⟩

/-- One errand, whichever `outcome` it has. -/
theorem goes_singleton {errand : Errand} {x : Program.Exchange interface}
    (herrand : errand? x.request = some errand) (houtcome : outcome x = result) :
    Goes [errand] [x] result := by
  rw [Goes, List.map_singleton, ← herrand]
  cases result with
  | ok => exact ⟨_, .next (a := ()) houtcome .done, rfl⟩
  | error fault => exact ⟨_, .failed houtcome, rfl⟩

/-- Errands behind errands that all succeeded: the one run `Goes` behind the other. -/
theorem Goes.append (h : Goes errands walked (.ok ())) (hlater : Goes more later result) :
    Goes (errands ++ more) (walked ++ later) result := by
  obtain ⟨results, hturn, hresult⟩ := h
  obtain ⟨laterResults, hlaterTurn, rfl⟩ := hlater
  cases results with
  | error fault => exact absurd hresult nofun
  | ok results =>
    rw [Goes, List.map_append]
    exact ⟨_, hturn.append hlaterTurn, by cases laterResults <;> rfl⟩

/-- There are no errands behind a failure. -/
theorem Goes.stop {fault : Fault} (h : Goes errands walked (.error fault)) (more : List Errand) :
    Goes (errands ++ more) walked (.error fault) := by
  obtain ⟨results, hturn, hresult⟩ := h
  cases results with
  | ok results => exact absurd hresult nofun
  | error fault' =>
    obtain rfl := Except.error.inj hresult
    rw [Goes, List.map_append]
    exact ⟨_, hturn.append_places _, rfl⟩

/-- The errands that were run are the first of the `errands`. -/
theorem Goes.isPrefix (h : Goes errands walked result) :
    walked.map (errand? ·.request) <+: errands.map some := by
  obtain ⟨results, hturn, -⟩ := h
  exact hturn.isPrefix

theorem forall_outcome_of_forall₂ {results : List Unit}
    (h : List.Forall₂ (fun x a => outcome x = .ok a) walked results) :
    ∀ x ∈ walked, outcome x = .ok () :=
  ((List.forall₂_and_left _ _).1 (h.imp fun _ _ hx => ⟨hx, hx⟩)).1

/-- If nothing fails, all `errands` are run, and each succeeds. -/
theorem Goes.of_ok (h : Goes errands walked (.ok ())) :
    walked.map (errand? ·.request) = errands.map some ∧ ∀ x ∈ walked, outcome x = .ok () := by
  obtain ⟨results, hturn, hresult⟩ := h
  cases results with
  | error fault => exact absurd hresult nofun
  | ok results =>
    obtain ⟨hall, hoks⟩ := hturn.of_ok
    exact ⟨hall, forall_outcome_of_forall₂ hoks⟩

/-- A failure is that of the last errand that was run, and all before it succeeded. -/
theorem Goes.of_error {fault : Fault} (h : Goes errands walked (.error fault)) :
    ∃ front failed, walked = front ++ [failed] ∧ (∀ x ∈ front, outcome x = .ok ()) ∧
      outcome failed = .error fault := by
  obtain ⟨results, hturn, hresult⟩ := h
  cases results with
  | ok results => exact absurd hresult nofun
  | error fault' =>
    obtain rfl := Except.error.inj hresult
    obtain ⟨front, failed, oks, rfl, hoks, hfailed⟩ := hturn.of_error
    exact ⟨front, failed, rfl, forall_outcome_of_forall₂ hoks, hfailed⟩

end Goes

/-! ## Copying a listing -/

variable {σ : Type} {all exchanges : List (Program.Exchange interface)}

/-- An attempt runs known `errands`, as long as all that is exchanged is among `all` that is known
to be exchanged. -/
def Follows (all : List (Program.Exchange interface)) (x : Attempt σ interface Unit)
    (errands : List Errand) : Prop :=
  ∀ ⦃s exchanges s' result⦄, exchanges ⊆ all → Attempt.Run x s exchanges s' result →
    s' = s ∧ Goes errands exchanges result

section Follows

theorem follows_pure : Follows all (pure () : Attempt σ interface Unit) [] := by
  intro s exchanges s' result _ h
  obtain ⟨rfl, rfl, rfl⟩ := Attempt.run_pure_iff.1 h
  exact ⟨rfl, goes_nil⟩

theorem follows_makeDirectory (path : String) :
    Follows all (ExceptT.mk (.ask (.makeDirectory path) .done) : Attempt σ interface Unit)
      [.makeDirectory path] := by
  intro s exchanges s' result _ h
  obtain ⟨rfl, rfl⟩ := Program.run_request_iff.1 h
  exact ⟨rfl, goes_singleton rfl rfl⟩

theorem follows_putFile (source destination : String) :
    Follows all (ExceptT.mk (.ask (.putFile source destination) .done) : Attempt σ interface Unit)
      [.putFile source destination] := by
  intro s exchanges s' result _ h
  obtain ⟨rfl, rfl⟩ := Program.run_request_iff.1 h
  exact ⟨rfl, goes_singleton rfl rfl⟩

/-- One attempt after another `Follows` the errands of both. -/
theorem Follows.bind {x y : Attempt σ interface Unit} {errands more : List Errand}
    (hx : Follows all x errands) (hy : Follows all y more) :
    Follows all (x >>= fun _ => y) (errands ++ more) := by
  intro s exchanges s' result hsubset h
  rcases Attempt.run_bind_iff.1 h with ⟨fault, hfailed, rfl⟩ | ⟨mid, _, first, second, h₁, h₂, rfl⟩
  · obtain ⟨rfl, hgoes⟩ := hx hsubset hfailed
    exact ⟨rfl, hgoes.stop more⟩
  · obtain ⟨hfirst, hsecond⟩ := List.append_subset.1 hsubset
    obtain ⟨rfl, hgoes⟩ := hx hfirst h₁
    obtain ⟨rfl, hlater⟩ := hy hsecond h₂
    exact ⟨rfl, hgoes.append hlater⟩

/-- An attempt lists a directory. -/
def Lists {Height : Type} (path : String) (x : Attempt σ interface (List (Entry Height))) : Prop :=
  ∀ ⦃s exchanges s' result⦄, Attempt.Run x s exchanges s' result →
    s' = s ∧ ∃ exchange, exchanges = [exchange] ∧ errand? exchange.request = some (.list path) ∧
      outcome exchange = result.map (fun _ => ()) ∧
      ∀ entries, result = .ok entries → shown? exchange = some (path, entries.map Entry.flat)

theorem lists_list (path : String) :
    Lists path (ExceptT.mk (.ask (.list path) .done) : Attempt σ interface (List (Entry Nat))) := by
  intro s exchanges s' result h
  obtain ⟨rfl, rfl⟩ := Program.run_request_iff.1 h
  exact ⟨rfl, _, rfl, rfl, rfl, fun entries hentries => by rw [hentries]; rfl⟩

theorem lists_listBelow (path : String) (height : Nat) :
    Lists path (ExceptT.mk (.ask (.listBelow path height) .done) :
      Attempt σ interface (List (Entry (Fin height)))) := by
  intro s exchanges s' result h
  obtain ⟨rfl, rfl⟩ := Program.run_request_iff.1 h
  exact ⟨rfl, _, rfl, rfl, rfl, fun entries hentries => by rw [hentries]; rfl⟩

/-- Listing a directory, and then doing something about what was listed, by what `Lists` it. -/
theorem Lists.bind {Height : Type} {path : String} {tree : Tree} {errands : List Errand}
    {x : Attempt σ interface (List (Entry Height))}
    {f : List (Entry Height) → Attempt σ interface Unit} (hx : Lists path x)
    (hshown : ShowsAt all path tree)
    (hf : ∀ entries, entries.map Entry.flat = tree.entries → Follows all (f entries) errands) :
    Follows all (x >>= f) (.list path :: errands) := by
  intro s exchanges s' result hsubset h
  rcases Attempt.run_bind_iff.1 h with
    ⟨fault, hfailed, rfl⟩ | ⟨mid, entries, first, second, h₁, h₂, rfl⟩
  · obtain ⟨rfl, exchange, rfl, herrand, houtcome, -⟩ := hx hfailed
    exact ⟨rfl, (goes_singleton herrand houtcome).stop errands⟩
  · obtain ⟨hfirst, hsecond⟩ := List.append_subset.1 hsubset
    obtain ⟨rfl, exchange, rfl, herrand, houtcome, hentries⟩ := hx h₁
    have hlisted := hshown exchange (hfirst List.mem_cons_self) _ (hentries entries rfl)
    obtain ⟨rfl, hlater⟩ := hf entries hlisted hsecond h₂
    exact ⟨rfl, (goes_singleton herrand houtcome).append hlater⟩

/-- Copying by `copyEntries` what was listed of a directory is doing what is to be done about
everything in it. The induction is on what there is in it; a directory there has a listing of its
own. -/
theorem follows_copyEntries {Height : Type} (height : Height → Nat) (source destination : String)
    {tree : Tree} {place : List String} {entries : List (Entry Height)} (hplain : tree.Plain)
    (hshown : ∀ place' below, .directory place' below ∈ tree.nodes place →
      ShowsAt all (pathBelow source place') below)
    (hentries : entries.map Entry.flat = tree.entries) :
    Follows all
      (copyEntries (fun lower => copyBelow (height lower)) (pathBelow source place)
        (pathBelow destination place) entries : Attempt σ interface Unit)
      ((tree.nodes place).flatMap (Node.errands source destination)) := by
  induction tree generalizing Height place entries with
  | nil =>
    obtain rfl := List.map_eq_nil_iff.1 hentries
    exact follows_pure
  | directory name below rest ihbelow ihrest =>
    obtain ⟨entry, entries, rfl, hentry, hlisted⟩ := List.map_eq_cons_iff.1 hentries
    obtain ⟨hname, hbelow, hrest⟩ := hplain
    cases entry with
    | file => exact absurd hentry nofun
    | other => exact absurd hentry nofun
    | directory listed lower =>
      obtain rfl : listed = name := (Entry.directory.inj hentry).1
      have henter : Follows all (copyBelow (height lower) (pathBelow source (place ++ [listed]))
          (pathBelow destination (place ++ [listed])) : Attempt σ interface Unit)
          (.list (pathBelow source (place ++ [listed])) ::
            (below.nodes (place ++ [listed])).flatMap (Node.errands source destination)) := by
        rw [copyBelow]
        refine (lists_listBelow _ _).bind (hshown _ _ List.mem_cons_self) fun entries hentered => ?_
        exact ihbelow Fin.val hbelow (fun place' below' hmem => hshown _ _
          (List.mem_cons_of_mem _ (List.mem_append_left _ hmem))) hentered
      have hlater := ihrest height hrest (fun place' below' hmem => hshown _ _
        (List.mem_cons_of_mem _ (List.mem_append_right _ hmem))) hlisted
      -- both paths that are handed down are paths of the same place
      rw [copyEntries, join_pathBelow _ _ hname, join_pathBelow _ _ hname, Tree.nodes,
        List.flatMap_cons, List.flatMap_append]
      exact (follows_makeDirectory _).bind (henter.bind hlater)
  | file name rest ih =>
    obtain ⟨entry, entries, rfl, hentry, hlisted⟩ := List.map_eq_cons_iff.1 hentries
    obtain ⟨hname, hrest⟩ := hplain
    cases entry with
    | directory => exact absurd hentry nofun
    | other => exact absurd hentry nofun
    | file listed =>
      obtain rfl : listed = name := Entry.file.inj hentry
      have hlater := ih height hrest
        (fun place' below' hmem => hshown _ _ (List.mem_cons_of_mem _ hmem)) hlisted
      rw [copyEntries, join_pathBelow _ _ hname, join_pathBelow _ _ hname, Tree.nodes,
        List.flatMap_cons]
      exact (follows_putFile _ _).bind hlater
  | other name rest ih =>
    obtain ⟨entry, entries, rfl, hentry, hlisted⟩ := List.map_eq_cons_iff.1 hentries
    cases entry with
    | directory => exact absurd hentry nofun
    | file => exact absurd hentry nofun
    | other listed =>
      have hlater := ih height hplain.2
        (fun place' below' hmem => hshown _ _ (List.mem_cons_of_mem _ hmem)) hlisted
      rw [copyEntries, Tree.nodes, List.flatMap_cons]
      exact hlater

end Follows

/-! ## The upload -/

/-- By `withFiles`, a file session that opens is closed after whatever was done with it. One that
does not open is neither used nor closed. -/
theorem run_withFiles_iff {work : Attempt σ interface Unit} {s s' : σ}
    {result : Except Fault Unit} :
    Attempt.Run (withFiles work) s exchanges s' result ↔
      (∃ fault, exchanges = [⟨.openFiles, .error fault⟩] ∧ s' = s ∧ result = .error fault) ∨
      ∃ walked, Attempt.Run work s walked s' result ∧
        exchanges = ⟨.openFiles, .ok ()⟩ :: (walked ++ [⟨.closeFiles, ()⟩]) := by
  have hopen {first : List (Program.Exchange interface)} {mid : σ} {reply : Except Fault Unit} :
      Attempt.Run (ExceptT.mk (.ask .openFiles .done) : Attempt σ interface Unit) s first mid
          reply ↔
        first = [⟨.openFiles, reply⟩] ∧ mid = s :=
    Program.run_request_iff
  rw [withFiles]
  constructor
  · intro h
    rcases Attempt.run_bind_iff.1 h with
      ⟨fault, hfailed, rfl⟩ | ⟨mid, _, first, second, hopened, hrest, rfl⟩
    · obtain ⟨rfl, rfl⟩ := hopen.1 hfailed
      exact .inl ⟨fault, rfl, rfl, rfl⟩
    · obtain ⟨rfl, rfl⟩ := hopen.1 hopened
      obtain ⟨mid, walked, last, hwork, hclosed, rfl⟩ := Attempt.run_thenAlways_lift_iff.1 hrest
      obtain ⟨rfl, rfl⟩ := Program.run_request_iff.1 hclosed
      exact .inr ⟨walked, hwork, rfl⟩
  · rintro (⟨fault, rfl, rfl, rfl⟩ | ⟨walked, hwork, rfl⟩)
    · exact Attempt.run_bind_iff.2 (.inl ⟨fault, hopen.2 ⟨rfl, rfl⟩, rfl⟩)
    · refine Attempt.run_bind_of_exchange (hopen.2 ⟨rfl, rfl⟩) ?_
      exact Attempt.run_thenAlways_lift_iff.2
        ⟨s', walked, _, hwork, Program.run_request_iff.2 ⟨rfl, rfl⟩, rfl⟩

/-- The operations of the file session, each an `Errand`, among what was exchanged. -/
def operationsOf (walked : List (Program.Exchange interface)) : List Errand :=
  (walked.filterMap (errand? ·.request)).filter Errand.isOperation

/-- What is done with a file session between its beginning and its end, and how that ends. -/
structure Mirrors (tree : Tree) (source destination : String)
    (walked : List (Program.Exchange interface)) (result : Except Fault Unit) : Prop where
  /-- Nothing else is done, in no other order, and nothing twice. -/
  inOrder : walked.map (errand? ·.request) <+: (tree.walk source destination).map some
  operations : operationsOf walked <+: tree.operations source destination
  succeeds : result = .ok () ↔ ∀ x ∈ walked, outcome x = .ok ()
  /-- If nothing fails, nothing is left out. -/
  whole : result = .ok () →
    walked.map (errand? ·.request) = (tree.walk source destination).map some ∧
      operationsOf walked = tree.operations source destination
  /-- What fails is the last thing that is done. -/
  stops {fault : Fault} : result = .error fault →
    ∃ front failed, walked = front ++ [failed] ∧ (∀ x ∈ front, outcome x = .ok ()) ∧
      outcome failed = .error fault

/-- The operations among the errands that were run are the `operations` of the tree. -/
theorem operationsOf_eq {walked : List (Program.Exchange interface)} {errands : List Errand}
    (h : walked.map (errand? ·.request) = errands.map some) :
    operationsOf walked = errands.filter Errand.isOperation := by
  have hall : (walked.map (errand? ·.request)).filterMap id = errands := by
    rw [h, List.filterMap_map]
    exact List.filterMap_some
  rw [List.filterMap_map] at hall
  exact congrArg (List.filter Errand.isOperation) hall

/-- Running the errands of a tree `Mirrors` it. -/
theorem Goes.mirrors {tree : Tree} {source destination : String}
    {walked : List (Program.Exchange interface)} {result : Except Fault Unit}
    (h : Goes (tree.walk source destination) walked result) :
    Mirrors tree source destination walked result where
  inOrder := h.isPrefix
  operations := by
    obtain ⟨done, hdone, hwalked⟩ := List.prefix_map_iff.1 h.isPrefix
    rw [operationsOf_eq hwalked, ← Tree.filter_walk]
    exact hdone.filter _
  succeeds := by
    constructor
    · rintro rfl
      exact h.of_ok.2
    · intro hall
      cases result with
      | ok => rfl
      | error fault =>
        obtain ⟨front, failed, rfl, -, hfailed⟩ := h.of_error
        exact absurd ((hall failed List.mem_concat_self).symm.trans hfailed) nofun
  whole := by
    rintro rfl
    exact ⟨h.of_ok.1, (operationsOf_eq h.of_ok.1).trans (tree.filter_walk source destination)⟩
  stops := by
    rintro fault rfl
    exact h.of_error

/-- **An `upload` mirrors the tree.** Once the file session is open, what it does `Mirrors` the
tree: its directories and files are copied in their order, up to the first failure, and then the
session is closed. -/
theorem upload_mirrors_tree {tree : Tree} {source destination : String} {s s' : σ}
    {result : Except Fault Unit} (hplain : tree.Plain) (hshown : Shows exchanges source tree)
    (h : Attempt.Run (upload source destination) s exchanges s' result) :
    s' = s ∧
      ((∃ fault, exchanges = [⟨.openFiles, .error fault⟩] ∧ result = .error fault) ∨
      ∃ walked, exchanges = ⟨.openFiles, .ok ()⟩ :: (walked ++ [⟨.closeFiles, ()⟩]) ∧
        Mirrors tree source destination walked result) := by
  have hfollows : Follows exchanges (do
      let entries ← (ExceptT.mk (.ask (.list source) .done) :
        Attempt σ interface (List (Entry Nat)))
      copyEntries copyBelow source destination entries) (tree.walk source destination) :=
    (lists_list source).bind hshown.top fun entries hlisted =>
      follows_copyEntries id source destination hplain (fun _ _ => hshown.below) hlisted
  rcases run_withFiles_iff.1 h with ⟨fault, hfailed, rfl, rfl⟩ | ⟨walked, hwork, hwalked⟩
  · exact ⟨rfl, .inl ⟨fault, hfailed, rfl⟩⟩
  · have hsubset : walked ⊆ exchanges := by
      rw [hwalked]
      exact List.subset_cons_of_subset _ (List.subset_append_left _ _)
    obtain ⟨rfl, hgoes⟩ := hfollows hsubset hwork
    exact ⟨rfl, .inr ⟨walked, hwalked, hgoes.mirrors⟩⟩

/-- A file two levels down is refused. The two directories above it have been made by then, and the
session is closed. -/
theorem refused_file_ends_upload :
    ∃ (tree : Tree) (walked : List (Program.Exchange interface)),
      tree = .directory "lib" (.directory "deep" (.file "b.ts" .nil) (.other "socket" .nil))
        (.file "main.ts" .nil) ∧ tree.Plain ∧
      Shows (⟨.openFiles, .ok ()⟩ :: (walked ++ [⟨.closeFiles, ()⟩])) "/app" tree ∧
      Attempt.Run (upload "/app" "/opt") ()
        (⟨.openFiles, .ok ()⟩ :: (walked ++ [⟨.closeFiles, ()⟩])) ()
        (.error (.ofMessage "Permission denied")) ∧
      Mirrors tree "/app" "/opt" walked (.error (.ofMessage "Permission denied")) := by
  let tree : Tree :=
    .directory "lib" (.directory "deep" (.file "b.ts" .nil) (.other "socket" .nil))
      (.file "main.ts" .nil)
  let walked : List (Program.Exchange interface) :=
    [⟨.list "/app", .ok [.directory "lib" 2, .file "main.ts"]⟩,
      ⟨.makeDirectory "/opt/lib", .ok ()⟩,
      ⟨.listBelow "/app/lib" 2, .ok [.directory "deep" (1 : Fin 2), .other "socket"]⟩,
      ⟨.makeDirectory "/opt/lib/deep", .ok ()⟩,
      ⟨.listBelow "/app/lib/deep" 1, .ok [.file "b.ts"]⟩,
      ⟨.putFile "/app/lib/deep/b.ts" "/opt/lib/deep/b.ts", .error (.ofMessage "Permission denied")⟩]
  have hplain : tree.Plain := by simp [tree, Tree.Plain]
  have hshown : Shows (⟨.openFiles, .ok ()⟩ :: (walked ++ [⟨.closeFiles, ()⟩])) "/app" tree := by
    refine ⟨by simp [ShowsAt, walked, tree, shown?, Tree.entries, Entry.flat], fun hmem => ?_⟩
    obtain ⟨rfl, rfl⟩ | ⟨rfl, rfl⟩ : _ ∨ _ := by simpa [tree, Tree.nodes] using hmem
    · have hpath : pathBelow "/app" ["lib"] = "/app/lib" := rfl
      simp [hpath, ShowsAt, walked, shown?, Tree.entries, Entry.flat]
    · have hpath : pathBelow "/app" ["lib", "deep"] = "/app/lib/deep" := rfl
      simp [hpath, ShowsAt, walked, shown?, Tree.entries, Entry.flat]
  have hdeep : Attempt.Run (copyBelow 1 "/app/lib/deep" "/opt/lib/deep") () (walked.drop 4) ()
      (.error (.ofMessage "Permission denied")) := by
    rw [copyBelow]
    refine Attempt.run_bind_of_exchange (Program.run_request_iff.2 ⟨rfl, rfl⟩) ?_
    exact Attempt.run_bind_iff.2 (.inl ⟨_, Program.run_request_iff.2 ⟨rfl, rfl⟩, rfl⟩)
  have hlib : Attempt.Run (copyBelow 2 "/app/lib" "/opt/lib") () (walked.drop 2) ()
      (.error (.ofMessage "Permission denied")) := by
    rw [copyBelow]
    refine Attempt.run_bind_of_exchange (Program.run_request_iff.2 ⟨rfl, rfl⟩) ?_
    refine Attempt.run_bind_of_exchange (Program.run_request_iff.2 ⟨rfl, rfl⟩) ?_
    exact Attempt.run_bind_iff.2 (.inl ⟨_, hdeep, rfl⟩)
  have hrun : Attempt.Run (upload "/app" "/opt") ()
      (⟨.openFiles, .ok ()⟩ :: (walked ++ [⟨.closeFiles, ()⟩])) ()
      (.error (.ofMessage "Permission denied")) := by
    refine run_withFiles_iff.2 (.inr ⟨walked, ?_, rfl⟩)
    refine Attempt.run_bind_of_exchange (Program.run_request_iff.2 ⟨rfl, rfl⟩) ?_
    refine Attempt.run_bind_of_exchange (Program.run_request_iff.2 ⟨rfl, rfl⟩) ?_
    exact Attempt.run_bind_iff.2 (.inl ⟨_, hlib, rfl⟩)
  obtain ⟨-, ⟨fault, hclosed, -⟩ | ⟨walked', hwalked, hmirrors⟩⟩ :=
    upload_mirrors_tree hplain hshown hrun
  · exact absurd hclosed nofun
  · obtain rfl := List.append_cancel_right (List.cons.inj hwalked).2
    exact ⟨tree, walked, rfl, hplain, hshown, hrun, hmirrors⟩

/-! ## Every tree -/

/-- How many levels of directories there are in a `Tree`. -/
def Tree.height : Tree → Nat
  | .nil => 0
  | .directory _ below rest => max (below.height + 1) rest.height
  | .file _ rest | .other _ rest => rest.height

/-- The listing that a `Node` needs. -/
def Node.listing? (source : String) : Node → Option (String × List (Entry Unit))
  | .directory place below => some (pathBelow source place, below.entries)
  | .file _ | .other _ => none

/-- What is exchanged when a listing is copied and nothing fails, by `nodes`. -/
structure Copies (source destination : String) (nodes : List Node)
    (walked : List (Program.Exchange interface)) : Prop where
  errands : walked.map (errand? ·.request)
    = (nodes.flatMap (Node.errands source destination)).map some
  listings : walked.filterMap shown? = nodes.filterMap (Node.listing? source)

theorem Copies.append {source destination : String} {nodes more : List Node}
    {walked later : List (Program.Exchange interface)} (h : Copies source destination nodes walked)
    (hlater : Copies source destination more later) :
    Copies source destination (nodes ++ more) (walked ++ later) where
  errands := by
    rw [List.map_append, h.errands, hlater.errands, List.flatMap_append, List.map_append]
  listings := by
    rw [List.filterMap_append, h.listings, hlater.listings, List.filterMap_append]

/-- There are heights for every tree with which `copyEntries` can copy it. -/
theorem exists_copyEntries {Height : Type} (height : Height → Nat) (source destination : String)
    (s : σ) {tree : Tree} (place : List String) (hplain : tree.Plain)
    (hheight : ∀ n < tree.height, ∃ lower, height lower = n) :
    ∃ entries walked, entries.map Entry.flat = tree.entries ∧
      Attempt.Run (copyEntries (fun lower => copyBelow (height lower)) (pathBelow source place)
        (pathBelow destination place) entries) s walked s (.ok ()) ∧
      Copies source destination (tree.nodes place) walked := by
  induction tree generalizing Height place with
  | nil => exact ⟨[], [], rfl, Attempt.run_pure_iff.2 ⟨rfl, rfl, rfl⟩, rfl, rfl⟩
  | directory name below rest ihbelow ihrest =>
    obtain ⟨hname, hbelow, hrest⟩ := hplain
    obtain ⟨lower, hlower⟩ := hheight below.height (Nat.le_max_left _ _)
    obtain ⟨inside, entered, hinside, henter, hentered⟩ :=
      ihbelow Fin.val (place ++ [name]) hbelow fun n hn => ⟨⟨n, hn⟩, rfl⟩
    obtain ⟨entries, walked, hentries, hrun, hwalked⟩ :=
      ihrest height place hrest fun n hn => hheight n (Nat.lt_of_lt_of_le hn (Nat.le_max_right _ _))
    let made : Program.Exchange interface :=
      ⟨.makeDirectory (pathBelow destination (place ++ [name])), .ok ()⟩
    let listed : Program.Exchange interface :=
      ⟨.listBelow (pathBelow source (place ++ [name])) below.height, .ok inside⟩
    have hcopies : Copies source destination [.directory (place ++ [name]) below] [made, listed] :=
      ⟨rfl, congrArg (fun found => [(pathBelow source (place ++ [name]), found)]) hinside⟩
    have hcopy : Attempt.Run (copyBelow (height lower) (pathBelow source (place ++ [name]))
        (pathBelow destination (place ++ [name]))) s (listed :: entered) s (.ok ()) := by
      rw [hlower, copyBelow]
      exact Attempt.run_bind_of_exchange (Program.run_request_iff.2 ⟨rfl, rfl⟩) henter
    refine ⟨.directory name lower :: entries, [made, listed] ++ (entered ++ walked),
      congrArg (Entry.directory name () :: ·) hentries, ?_,
      hcopies.append (hentered.append hwalked)⟩
    rw [copyEntries, join_pathBelow _ _ hname, join_pathBelow _ _ hname]
    refine Attempt.run_bind_of_exchange (Program.run_request_iff.2 ⟨rfl, rfl⟩) ?_
    exact Attempt.run_bind_iff.2 (.inr ⟨s, (), listed :: entered, walked, hcopy, hrun, rfl⟩)
  | file name rest ih =>
    obtain ⟨hname, hrest⟩ := hplain
    obtain ⟨entries, walked, hentries, hrun, hwalked⟩ := ih height place hrest hheight
    let put : Program.Exchange interface :=
      ⟨.putFile (pathBelow source (place ++ [name])) (pathBelow destination (place ++ [name])),
        .ok ()⟩
    have hcopies : Copies source destination [.file (place ++ [name])] [put] := ⟨rfl, rfl⟩
    refine ⟨.file name :: entries, [put] ++ walked, congrArg (Entry.file name :: ·) hentries, ?_,
      hcopies.append hwalked⟩
    rw [copyEntries, join_pathBelow _ _ hname, join_pathBelow _ _ hname]
    exact Attempt.run_bind_of_exchange (Program.run_request_iff.2 ⟨rfl, rfl⟩) hrun
  | other name rest ih =>
    obtain ⟨entries, walked, hentries, hrun, hwalked⟩ := ih height place hplain.2 hheight
    have hcopies : Copies source destination [.other (place ++ [name])] [] := ⟨rfl, rfl⟩
    refine ⟨.other name :: entries, walked, congrArg (Entry.other name :: ·) hentries, ?_,
      hcopies.append hwalked⟩
    rw [copyEntries]
    exact hrun

/-- Every tree is uploaded by `upload` as a whole if nothing fails, however deep it is. -/
theorem exists_upload {tree : Tree} (hplain : tree.Plain) (source destination : String) (s : σ) :
    ∃ walked, Attempt.Run (upload source destination) s
        (⟨.openFiles, .ok ()⟩ :: (walked ++ [⟨.closeFiles, ()⟩])) s (.ok ()) ∧
      walked.map (errand? ·.request) = (tree.walk source destination).map some ∧
      walked.filterMap shown?
        = (source, tree.entries) :: (tree.nodes []).filterMap (Node.listing? source) := by
  obtain ⟨entries, walked, hentries, hrun, hwalked⟩ :=
    exists_copyEntries id source destination s [] hplain fun n _ => ⟨n, rfl⟩
  refine ⟨⟨.list source, .ok entries⟩ :: walked, run_withFiles_iff.2 (.inr ⟨_, ?_, rfl⟩), ?_, ?_⟩
  · exact Attempt.run_bind_of_exchange (Program.run_request_iff.2 ⟨rfl, rfl⟩) hrun
  · exact congrArg (some (Errand.list source) :: ·) hwalked.errands
  · rw [← hentries, ← hwalked.listings]
    rfl

end SshClient

end Outpost
