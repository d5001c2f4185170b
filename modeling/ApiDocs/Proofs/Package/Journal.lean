/-
  ApiDocs.Proofs.Package.Journal

  What a session says does not change, and how often it looks at the workspace. The journal
  of a session holds every answer that it has given and every look that it took. After any
  run of requests, in workspaces that may change between any two of them, no answer differs
  from an earlier one (`Event.Agrees`), each new identifier costs at most one look per root,
  and a directory whose units have been given is not looked at again.
-/

import ApiDocs.Proofs.Requests
import Mathlib.Data.List.Dedup

namespace ApiDocs.Session

open Source (SourceUnit)

/-- How a later event fits an earlier one: an identifier leads where it led, quotation marks
aside; a directory holds what it held, and is not listed again. -/
def Event.Agrees : (later earlier : Event) → Prop
  | located identifier answer, located identifier' answer' =>
    bareIdentifier identifier = bareIdentifier identifier' → answer = answer'
  | supplied directory units, supplied directory' units' => directory = directory' → units = units'
  | listed directory, supplied directory' _ => directory ≠ directory'
  | _, _ => True

/-- The bare identifier that was asked for. -/
def Event.asked? : Event → Option String
  | located identifier _ => some (bareIdentifier identifier)
  | _ => none

/-- Files are read only in the course of reading a directory that was listed. -/
def ReadsListed (journal : List Event) : Prop :=
  ∀ path older, .read path :: older <:+ journal →
    ∃ paths directory rest, older = List.map Event.read paths ++ .listed directory :: rest

/-- The journal of a session tells what the session knows. -/
structure Journaled (s : Session) : Prop where
  /-- An answer about an identifier is still known. -/
  located : ∀ identifier answer, .located identifier answer ∈ s.journal →
    s.located[bareIdentifier identifier]? = some answer
  /-- Units that were given are still known. -/
  supplied : ∀ directory units, .supplied directory units ∈ s.journal →
    s.units[directory]? = some units
  agrees : s.journal.Pairwise Event.Agrees
  canonicalized : s.probes.canonicalized ≤
    s.roots.order.length * (s.journal.filterMap Event.asked?).dedup.length
  reads : ReadsListed s.journal

/-! ## Adding to a journal -/

/-- No more paths are looked at than there are roots. -/
theorem length_probe (w : Workspace) (identifier : String) (roots : List String) :
    (probe w identifier roots).2.length ≤ roots.length := by
  induction roots with
  | nil => exact Nat.le_refl 0
  | cons root roots ih =>
    rw [probe]
    dsimp only
    split
    · simp
    · simpa using ih

theorem ReadsListed.append {journal : List Event} (h : ReadsListed journal) (new : List Event)
    (hnew : ∀ path, .read path ∉ new) : ReadsListed (new ++ journal) := by
  induction new with
  | nil => exact h
  | cons event new ih =>
    have ih := ih fun path hp => hnew path (List.mem_cons_of_mem event hp)
    intro path older hsuffix
    rcases List.suffix_cons_iff.1 hsuffix with heq | hsuffix
    · obtain ⟨rfl, -⟩ := List.cons.inj heq
      exact absurd List.mem_cons_self (hnew path)
    · exact ih path older hsuffix

theorem ReadsListed.block {journal : List Event} (h : ReadsListed journal) (paths : List String)
    (directory : String) :
    ReadsListed (List.map Event.read paths ++ .listed directory :: journal) := by
  induction paths with
  | nil => exact h.append [.listed directory] (by simp)
  | cons path paths ih =>
    intro path' older hsuffix
    rcases List.suffix_cons_iff.1 hsuffix with heq | hsuffix
    · obtain ⟨-, rfl⟩ := List.cons.inj heq
      exact ⟨paths, directory, journal, rfl⟩
    · exact ih path' older hsuffix

/-- What agrees with everything: looks at files and paths. -/
theorem pairwise_append_of_looks {new journal : List Event} (h : journal.Pairwise Event.Agrees)
    (hnew : ∀ event ∈ new, (∃ path, event = .canonicalized path) ∨ ∃ path, event = .read path) :
    (new ++ journal).Pairwise Event.Agrees := by
  induction new with
  | nil => exact h
  | cons event new ih =>
    refine List.Pairwise.cons (fun other _ => ?_) (ih fun e he => hnew e (List.mem_cons_of_mem _ he))
    rcases hnew event List.mem_cons_self with ⟨path, rfl⟩ | ⟨path, rfl⟩ <;> trivial

namespace Journaled

variable {w : Workspace} {s t : Session}

/-- More knowledge and more events: what remains to be seen is that the new events tell what
is known, and fit. -/
theorem extend (h : s.Journaled) (new : List Event) (hjournal : t.journal = new ++ s.journal)
    (hlocated : ∀ (key : String) (answer : Option String),
      s.located[key]? = some answer → t.located[key]? = some answer)
    (hunits : ∀ (path : String) (units : List SourceUnit),
      s.units[path]? = some units → t.units[path]? = some units)
    (hnewLocated : ∀ identifier answer, .located identifier answer ∈ new →
      t.located[bareIdentifier identifier]? = some answer)
    (hnewSupplied : ∀ directory units, .supplied directory units ∈ new →
      t.units[directory]? = some units)
    (hagrees : (new ++ s.journal).Pairwise Event.Agrees)
    (hcanonicalized : t.probes.canonicalized ≤
      t.roots.order.length * (t.journal.filterMap Event.asked?).dedup.length)
    (hreads : ReadsListed (new ++ s.journal)) : t.Journaled where
  located identifier answer he := by
    rw [hjournal, List.mem_append] at he
    rcases he with he | he
    · exact hnewLocated identifier answer he
    · exact hlocated _ _ (h.located identifier answer he)
  supplied directory units he := by
    rw [hjournal, List.mem_append] at he
    rcases he with he | he
    · exact hnewSupplied directory units he
    · exact hunits _ _ (h.supplied directory units he)
  agrees := hjournal ▸ hagrees
  canonicalized := hcanonicalized
  reads := hjournal ▸ hreads

/-- An answer that does not differ from the known one agrees with the journal. -/
theorem agrees_located (h : s.Journaled) {identifier : String} {answer : Option String}
    (hk : ∀ known, s.located[bareIdentifier identifier]? = some known → answer = known) :
    ∀ event ∈ s.journal, Event.Agrees (.located identifier answer) event := by
  intro event he
  cases event with
  | located other answer' => exact fun hb => hk answer' (hb ▸ h.located other answer' he)
  | supplied | canonicalized | listed | read => trivial

/-- Units that do not differ from the known ones agree with the journal. -/
theorem agrees_supplied (h : s.Journaled) {directory : String} {units : List SourceUnit}
    (hk : ∀ known, s.units[directory]? = some known → units = known) :
    ∀ event ∈ s.journal, Event.Agrees (.supplied directory units) event := by
  intro event he
  cases event with
  | supplied other units' => exact fun hd => hk units' (hd ▸ h.supplied other units' he)
  | located | canonicalized | listed | read => trivial

/-- A look at a directory that is not known agrees with the journal. -/
theorem agrees_listed (h : s.Journaled) {directory : String} (hk : s.units[directory]? = none) :
    ∀ event ∈ s.journal, Event.Agrees (.listed directory) event := by
  intro event he
  cases event with
  | supplied other units' =>
    intro hd
    rw [hd, h.supplied other units' he] at hk
    cases hk
  | located | canonicalized | listed | read => trivial

/-- Nothing in the journal is about an identifier that is not known. -/
theorem not_asked (h : s.Journaled) {key : String} (hk : s.located[key]? = none) :
    key ∉ s.journal.filterMap Event.asked? := by
  intro hmem
  obtain ⟨event, he, hasked⟩ := List.mem_filterMap.1 hmem
  cases event with
  | located identifier answer =>
    obtain rfl := Option.some.inj hasked
    rw [h.located identifier answer he] at hk
    cases hk
  | supplied | canonicalized | listed | read => cases hasked

/-! ## Steps -/

/-- Looking an identifier up: the looks at the workspace, of which there are none for a known
identifier, and then the answer. -/
theorem learn_journal (w : Workspace) (s : Session) (identifier : String) :
    ∃ looks : List String,
      (s.learn w identifier).journal =
        (.located identifier (s.whereIs w identifier) :: looks.map Event.canonicalized) ++ s.journal ∧
      looks.length ≤ s.roots.order.length ∧
      (s.located[bareIdentifier identifier]? ≠ none → looks = []) := by
  cases hk : s.located[bareIdentifier identifier]? with
  | some known =>
    refine ⟨[], ?_, Nat.zero_le _, fun _ => rfl⟩
    rw [learn_of_known hk, whereIs_of_known hk]
    rfl
  | none =>
    refine ⟨(probe w (bareIdentifier identifier) s.roots.order).2.reverse, ?_, ?_, fun h => absurd rfl h⟩
    · rw [learn, resolve_of_unknown hk]
      rfl
    · rw [List.length_reverse]
      exact length_probe w _ _

/-- Only an identifier that was not asked for before costs looks. -/
theorem canonicalized_learn (h : s.Journaled) (w : Workspace) (identifier : String) :
    (s.learn w identifier).probes.canonicalized ≤ (s.learn w identifier).roots.order.length *
      ((s.learn w identifier).journal.filterMap Event.asked?).dedup.length := by
  obtain ⟨looks, hjournal, hlooks, hnone⟩ := learn_journal w s identifier
  have hcount : (s.learn w identifier).probes.canonicalized =
      looks.length + s.probes.canonicalized := by
    simp [probes, hjournal, List.countP_append, List.countP_map]
  have hasked : (s.learn w identifier).journal.filterMap Event.asked? =
      bareIdentifier identifier :: s.journal.filterMap Event.asked? := by
    rw [hjournal]
    simp [Event.asked?]
  rw [hcount, hasked, roots_learn]
  have hold := h.canonicalized
  by_cases hk : s.located[bareIdentifier identifier]? = none
  · -- one more identifier, and at most one look per root for it
    rw [List.dedup_cons_of_notMem (h.not_asked hk), List.length_cons, Nat.mul_succ]
    omega
  · rw [hnone hk, List.length_nil, Nat.zero_add]
    refine Nat.le_trans hold (Nat.mul_le_mul_left _ ?_)
    by_cases hmem : bareIdentifier identifier ∈ s.journal.filterMap Event.asked?
    · exact (List.dedup_cons_of_mem hmem ▸ Nat.le_refl _)
    · rw [List.dedup_cons_of_notMem hmem]
      exact Nat.le_succ _

theorem learn (h : s.Journaled) (w : Workspace) (identifier : String) :
    (s.learn w identifier).Journaled := by
  obtain ⟨looks, hjournal, -, -⟩ := learn_journal w s identifier
  have hanswer : ∀ known, s.located[bareIdentifier identifier]? = some known →
      s.whereIs w identifier = known := by
    intro known hk
    exact whereIs_of_known hk
  refine h.extend _ hjournal ?_ (fun path units hu => by rwa [units_learn]) ?_ (by simp) ?_
    (h.canonicalized_learn w identifier) (h.reads.append _ (by simp))
  · intro key answer hk
    rw [located_learn]
    by_cases hb : bareIdentifier identifier = key
    · rw [if_pos hb, hanswer answer (hb ▸ hk)]
    · rw [if_neg hb, hk]
  · intro other answer he
    obtain ⟨rfl, rfl⟩ : other = identifier ∧ answer = s.whereIs w identifier := by simpa using he
    rw [located_learn, if_pos rfl]
  · refine List.Pairwise.cons (fun event he => ?_)
      (pairwise_append_of_looks h.agrees (by simp))
    rcases List.mem_append.1 he with he | he
    · obtain ⟨path, -, rfl⟩ := List.mem_map.1 he
      trivial
    · exact h.agrees_located hanswer event he

/-- Asking for units leaves the looks at identifiers alone. -/
theorem canonicalized_of_events (h : s.Journaled) (new : List Event)
    (hjournal : t.journal = new ++ s.journal) (hroots : t.roots = s.roots)
    (hlooks : ∀ path, .canonicalized path ∉ new)
    (hanswers : ∀ identifier answer, .located identifier answer ∉ new) :
    t.probes.canonicalized ≤
      t.roots.order.length * (t.journal.filterMap Event.asked?).dedup.length := by
  have hcount : t.probes.canonicalized = s.probes.canonicalized := by
    simp only [probes, hjournal, List.countP_append, Nat.add_eq_right]
    refine List.countP_eq_zero.2 fun event he => ?_
    cases event with
    | canonicalized path => exact absurd he (hlooks path)
    | located | supplied | listed | read => simp
  have hasked : new.filterMap Event.asked? = [] := by
    refine List.filterMap_eq_nil_iff.2 fun event he => ?_
    cases event with
    | located identifier answer => exact absurd he (hanswers identifier answer)
    | supplied | canonicalized | listed | read => rfl
  rw [hcount, hjournal, List.filterMap_append, hasked, hroots]
  exact h.canonicalized

/-- Looking at a directory whose units are not known. -/
theorem look (h : s.Journaled) {path : String} (hk : s.units[path]? = none) (reads : List String) :
    { s with journal := List.map Event.read reads ++ Event.listed path :: s.journal }.Journaled := by
  have hagrees : (Event.listed path :: s.journal).Pairwise Event.Agrees :=
    h.agrees.cons (h.agrees_listed hk)
  refine h.extend (reads.map Event.read ++ [.listed path]) (by simp) (fun _ _ hl => hl)
    (fun _ _ hu => hu) (by simp) (by simp) ?_ ?_ ?_
  · rw [List.append_assoc]
    exact pairwise_append_of_looks hagrees (by simp)
  · exact h.canonicalized_of_events (reads.map Event.read ++ [.listed path]) (by simp) rfl
      (by simp) (by simp)
  · rw [List.append_assoc]
    exact h.reads.block reads path

/-- Giving units that are known from now on, if they were not before. -/
theorem supply (h : s.Journaled) {path : String} {units : List SourceUnit}
    (hjournal : t.journal = .supplied path units :: s.journal) (hlocated : t.located = s.located)
    (hroots : t.roots = s.roots)
    (hunits : ∀ (other : String) (known : List SourceUnit),
      s.units[other]? = some known → t.units[other]? = some known)
    (hsupplied : t.units[path]? = some units) : t.Journaled := by
  refine h.extend [.supplied path units] hjournal (fun _ _ hl => by rwa [hlocated]) hunits
    (by simp) ?_ ?_ ?_ (h.reads.append _ (by simp))
  · intro directory units' he
    obtain ⟨rfl, rfl⟩ : directory = path ∧ units' = units := by simpa using he
    exact hsupplied
  · refine h.agrees.cons (h.agrees_supplied fun known hknown => ?_)
    exact Option.some.inj (hsupplied.symm.trans (hunits path known hknown))
  · exact h.canonicalized_of_events [.supplied path units] hjournal hroots (by simp) (by simp)

theorem fetch (h : s.Journaled) (w : Workspace) (path : String) : (s.fetch w path).Journaled := by
  rw [Session.fetch]
  rcases unitsOf_cases w s path with ⟨units, hk, hu⟩ | ⟨e, reads, hk, -, hu⟩ | ⟨units, reads, hk, -, hu⟩
  · -- known units
    rw [hu, finalState_ok]
    exact h.supply rfl rfl rfl (fun _ _ hknown => hknown) hk
  · -- a failed attempt
    rw [hu, finalState_error]
    exact h.look hk reads
  · -- the first success
    rw [hu, finalState_ok]
    refine (h.look hk reads).supply rfl rfl rfl (fun other known hknown => ?_)
      (Dict.getElem?_insert_self ..)
    rw [Dict.getElem?_insert_ne _ _ (by rintro rfl; rw [hk] at hknown; cases hknown)]
    exact hknown

/-- Every step keeps the journal true. -/
theorem step {e : Effect} (hstep : Step w e s t) (h : s.Journaled) : t.Journaled := by
  cases hstep with
  | locate _ identifier => exact h.learn w identifier
  | read _ path => exact h.fetch w path
  | declare | adopt => exact ⟨h.located, h.supplied, h.agrees, h.canonicalized, h.reads⟩

theorem fresh (roots : Package.SearchRoots) (home : String) :
    ({ roots, home } : Session).Journaled where
  located _ _ he := by cases he
  supplied _ _ he := by cases he
  agrees := .nil
  canonicalized := Nat.zero_le _
  reads path older hsuffix := by simp at hsuffix

end Journaled

/-- **Answers are frozen and looks at the workspace are bounded**, after any run of requests in
workspaces that change in any way. No answer differs from an earlier one, and asking again
gives the answer and looks at nothing; each bare identifier costs at most one look per root;
a directory whose units were given is never listed again, and files are read only right after
a directory was listed. -/
theorem answers_frozen (roots : Package.SearchRoots) (home : String)
    (run : List (Workspace × Request)) :
    let s := ({ roots, home } : Session).after run
    s.journal.Pairwise Event.Agrees ∧
    (∀ identifier answer, .located identifier answer ∈ s.journal →
      ∀ w again, bareIdentifier again = bareIdentifier identifier →
        resolve w again s = .ok answer (s.record (.located again answer))) ∧
    s.probes.canonicalized ≤
      roots.order.length * (s.journal.filterMap Event.asked?).dedup.length ∧
    (∀ directory units, .supplied directory units ∈ s.journal →
      ∀ w, unitsOf w directory s = .ok units (s.record (.supplied directory units))) ∧
    ReadsListed s.journal := by
  have h : (({ roots, home } : Session).after run).Journaled :=
    after_invariant (fun _ _ _ _ hstep hs => hs.step hstep) (Journaled.fresh roots home) run
  have hroots : (({ roots, home } : Session).after run).roots = roots :=
    after_invariant (P := fun s => s.roots = roots)
      (fun _ e _ _ hstep hs => ((Changes.single e.mem_every hstep).roots_eq).trans hs) rfl run
  refine ⟨h.agrees, fun identifier answer he w again hb => ?_, ?_, fun directory units he w => ?_,
    h.reads⟩
  · exact resolve_of_known (hb ▸ h.located identifier answer he)
  · have hbound := h.canonicalized
    rw [hroots] at hbound
    exact hbound
  · exact unitsOf_of_known (h.supplied directory units he)

/-- A package found by a link and read once; when both are gone, the answers stay. -/
theorem answers_frozen_circle :
    let s := ({ roots := ⟨["src"], none⟩ } : Session).after
      [(.circle, .packageUnits "c"), (.empty, .packageUnits "\"c\"")]
    s.probes = ⟨1, 1, 1⟩ ∧
      resolve .empty "c" s = .ok (some "src/a") (s.record (.located "c" (some "src/a"))) := by
  intro s
  have hfound : s.journal.any (fun event => match event with
      | .located identifier answer => identifier = "c" && answer = some "src/a"
      | _ => false) = true := by decide +kernel
  obtain ⟨event, hevent, heq⟩ := List.any_eq_true.1 hfound
  have hlocated : .located "c" (some "src/a") ∈ s.journal := by
    cases event with
    | located identifier answer =>
      obtain ⟨rfl, rfl⟩ : identifier = "c" ∧ answer = some "src/a" := by simpa using heq
      exact hevent
    | supplied | canonicalized | listed | read => cases heq
  have hfrozen := answers_frozen ⟨["src"], none⟩ "."
    [(.circle, .packageUnits "c"), (.empty, .packageUnits "\"c\"")]
  exact ⟨by decide +kernel, hfrozen.2.1 "c" _ hlocated .empty "c" rfl⟩

end ApiDocs.Session
