import RecordStore.Proofs.Refinement

/-!
# RecordStore.Proofs.Commands

Runs of commands.  A command is asked of a session and of a shelf: it has the same answer, and leaves
a session that shows the shelf (`simulates_command`).  By induction the same holds of every run
(`Shows.answers`), and a run in an empty repository is one on an empty shelf
(`store_refines_shelf`).
-/

namespace RecordStore

open Procedure
open Repository (record?)

/-! ## Commands -/

/-- What is asked of a store, and what happens around it. -/
inductive Command where
  | create (kind : Text) (form : Form)
  | get (ident : Text)
  | contains (ident : Text)
  | list (kind? : Option Text)
  | update (ident : Text) (form : Form)
  | delete (ident : Text)
  | dispatch (name ident : Text)
  | setInput (form : Form)
  | reopen
  | setUser (user : Option Text)
  | setClock (clock : Clock)
  | setToday (today : Date)

/-- The answer to a command. -/
inductive Answer where
  | item (i : Item)
  | flag (b : Bool)
  | items (l : List Item)
  | page (response : Response)
  | done

namespace Command

/-- A command that brings no lone surrogates into the store, and no time that a record cannot hold
exactly. -/
def Proper : Command → Prop
  | create _ form | update _ form => ∀ field ∈ form, field.2.Plain
  | setUser user => ∀ u ∈ user, u.Plain
  | setClock clock => clock.now.Recordable
  | _ => True

/-- A command in a session. -/
def inSession : Command → Procedure Session Answer
  | create kind form => .item <$> Store.create kind form
  | get ident => .item <$> Store.get ident
  | contains ident => .flag <$> Store.contains ident
  | list kind? => .items <$> Store.list kind?
  | update ident form => .item <$> Store.update ident form
  | delete ident => .flag <$> Store.delete ident
  | dispatch name ident => .page <$> Dispatch.dispatch name ident
  | setInput form => (fun _ => .done) <$> Session.setInput form
  | reopen => (fun _ => .done) <$> Session.openRepository
  | setUser user => (fun _ => .done) <$> Procedure.modify fun s : Session => { s with user }
  | setClock clock => (fun _ => .done) <$> Procedure.modify fun s : Session => { s with clock }
  | setToday today => (fun _ => .done) <$> Procedure.modify fun s : Session => { s with today }

/-- A command on a shelf. -/
def onShelf : Command → Procedure Shelf Answer
  | create kind form => .item <$> Shelf.create kind form
  | get ident => .item <$> Shelf.fetch ident
  | contains ident => .flag <$> Shelf.contains ident
  | list kind? => .items <$> Shelf.list kind?
  | update ident form => .item <$> Shelf.update ident form
  | delete ident => .flag <$> Shelf.remove ident
  | dispatch name ident => .page <$> Shelf.dispatch name ident
  | setInput form => (fun _ => .done) <$> Procedure.modify fun h : Shelf =>
      { h with around := { h.around with input := form } }
  | reopen => (fun _ => .done) <$> pure ()
  | setUser user => (fun _ => .done) <$> Procedure.modify fun h : Shelf =>
      { h with around := { h.around with user } }
  | setClock clock => (fun _ => .done) <$> Procedure.modify fun h : Shelf => { h with clock }
  | setToday today => (fun _ => .done) <$> Procedure.modify fun h : Shelf =>
      { h with around := { h.around with today } }

end Command

/-- The answers to commands one after the other, and the state after them. -/
def answers {σ : Type} (does : Command → Procedure σ Answer) :
    List Command → σ → List (Except Failure Answer) × σ
  | [], s => ([], s)
  | c :: cs, s =>
    let o := Procedure.run (does c) s
    let rest := answers does cs o.state
    (o.result :: rest.1, rest.2)

/-! ## One command -/

section Commands

variable {s : Session} {h : Shelf} {c : Command}

/-- **One command.** It has the same answer in a session and on the shelf that it shows, and leaves a
session that shows the shelf. -/
theorem simulates_command (hc : c.Proper) : Simulates c.inSession c.onShelf fun _ => True := by
  cases c with
  | create kind form => exact (simulates_create kind hc).map _
  | get ident => exact (simulates_get ident).map _
  | contains ident => exact (simulates_contains ident).map _
  | list kind? => exact (simulates_list kind?).map _
  | update ident form => exact (simulates_update ident hc).map _
  | delete ident => exact (simulates_delete ident).map _
  | dispatch name ident => exact (simulates_dispatch name ident).map _
  | setInput form =>
      have hset : Simulates (Session.setInput form) _ fun _ => True :=
        .after_looking (fun _ hr => hr.ensureOpen) (simulates_modify fun s h hs => hs.given form)
      exact hset.map _
  | reopen => exact simulates_reopen.map _
  | setUser user => exact (simulates_modify fun s h hs => hs.actedBy hc).map _
  | setClock clock => exact (simulates_modify fun s h hs => hs.clocked hc).map _
  | setToday today => exact (simulates_modify fun s h hs => hs.onDay today).map _

end Commands

/-! ## The items of a shelf -/

namespace Shelf

section Counting

variable {h : Shelf} {l : List Item} {n : Int} {c : Command}

theorem Counts.map {α β : Type} {p : Procedure Shelf α} (f : α → β) (hp : Counts l n p) :
    Counts l n (f <$> p) :=
  hp.bind fun _ => ensures_pure fun _ hs => hs

/-- What leaves the items alone counts nothing up. -/
theorem counts_of_keeps {α : Type} {p : Procedure Shelf α} (hl : ∀ i ∈ l, i.header.revisionNumber ≤ n)
    (hp : p.Ensures (fun h => h.items = l) (fun _ h => h.items = l) fun h => h.items = l) :
    Counts l n p := by
  refine hp.imp fun _ h hs i hi => ?_
  exact Int.le_add_one (hl i (hs ▸ hi))

/-- A command that fails leaves the items as they are, and one that succeeds counts their revisions
up by one at most. -/
theorem counts_command (hl : ∀ i ∈ l, i.header.revisionNumber ≤ n) (hn : 0 ≤ n) (c : Command) :
    Counts l n c.onShelf := by
  have hstate : ∀ {β : Type} (f : Shelf → β), Counts l n (f <$> Procedure.state) := fun f =>
    Counts.map f (counts_of_keeps hl (ensures_of_looks fun s _ => ⟨_, yields_state s⟩))
  have hmodify : ∀ (f : Shelf → Shelf), (∀ h, (f h).items = h.items) →
      Counts l n (Procedure.modify f) := fun f hf =>
    counts_of_keeps hl (ensures_modify fun h hs => (hf h).trans hs)
  cases c with
  | create kind form => exact (counts_create hl hn kind form).map _
  | get ident => exact (counts_of_keeps hl ((ensures_fetch ident).imp fun _ _ hs => hs.1)).map _
  | contains ident => exact (hstate _).map _
  | list kind? => exact (hstate _).map _
  | update ident form => exact (counts_update hl ident form).map _
  | delete ident =>
      refine Counts.map _ ((ensures_remove ident).imp fun _ h hs i hi => ?_)
      exact Int.le_add_one (hl i (hs.1 i hi))
  | dispatch name ident => exact (counts_dispatch hl name ident).map _
  | setInput form => exact Counts.map _ (hmodify _ fun _ => by rfl)
  | reopen => exact (counts_of_keeps hl (ensures_pure fun _ hs => hs)).map _
  | setUser user => exact Counts.map _ (hmodify _ fun _ => by rfl)
  | setClock clock => exact Counts.map _ (hmodify _ fun _ => by rfl)
  | setToday today => exact Counts.map _ (hmodify _ fun _ => by rfl)

/-- The revisions of a shelf go up to some number. -/
theorem exists_upTo (h : Shelf) : ∃ n : Int, 0 ≤ n ∧ h.UpTo n := by
  suffices hl : ∀ l : List Item, ∃ n : Int, 0 ≤ n ∧ ∀ i ∈ l, i.header.revisionNumber ≤ n from hl h.items
  intro l
  induction l with
  | nil => exact ⟨0, Int.le_refl 0, fun i hi => absurd hi List.not_mem_nil⟩
  | cons i l ih =>
      obtain ⟨n, hn, hl⟩ := ih
      refine ⟨max n i.header.revisionNumber, by omega, fun j hj => ?_⟩
      rcases List.mem_cons.1 hj with rfl | hj
      · exact Int.le_max_right _ _
      · exact Int.le_trans (hl j hj) (Int.le_max_left _ _)

/-- A command that fails leaves the items as they are. -/
theorem items_of_error {e : Failure} (hc : (run c.onShelf h).result = .error e) :
    (run c.onShelf h).state.items = h.items := by
  obtain ⟨n, hn, hup⟩ := h.exists_upTo
  have hpost := counts_command hup hn c h _ _ rfl (yields_run _ h)
  rwa [hc] at hpost

/-- Every command counts the revisions up by one at most. -/
theorem UpTo.command (hup : h.UpTo n) (hn : 0 ≤ n) : (run c.onShelf h).state.UpTo (n + 1) := by
  have hpost := counts_command hup hn c h _ _ rfl (yields_run _ h)
  cases hr : (run c.onShelf h).result with
  | ok a => rwa [hr] at hpost
  | error e =>
      rw [hr] at hpost
      intro i hi
      rw [hpost] at hi
      exact Int.le_add_one (hup i hi)

theorem UpTo.answers (hup : h.UpTo n) (hn : 0 ≤ n) (cs : List Command) :
    (answers Command.onShelf cs h).2.UpTo (n + cs.length) := by
  induction cs generalizing h n with
  | nil => simpa [RecordStore.answers] using hup
  | cons c cs ih =>
      have hrest := ih (hup.command (c := c) hn) (by omega)
      have hlength : n + 1 + (cs.length : Int) = n + ((c :: cs).length : Int) := by
        rw [List.length_cons]
        omega
      exact hlength ▸ hrest

end Counting

end Shelf

/-! ## Runs -/

section Runs

variable {s : Session} {h : Shelf} {cs : List Command}

/-- **Run.** Commands have the same answers in a session and on the shelf that it shows, and leave a
session that shows the shelf. -/
theorem Shows.answers (hs : Shows s h) (hcs : ∀ c ∈ cs, c.Proper) :
    (answers Command.inSession cs s).1 = (answers Command.onShelf cs h).1
      ∧ Shows (answers Command.inSession cs s).2 (answers Command.onShelf cs h).2 := by
  induction cs generalizing s h with
  | nil => exact ⟨rfl, hs⟩
  | cons c cs ih =>
      obtain ⟨r, s', h', hsession, hshelf, hs', -⟩ :=
        simulates_command (hcs c List.mem_cons_self) s h hs
      obtain ⟨hrest, hshows⟩ := ih hs' fun c' hc' => hcs c' (List.mem_cons_of_mem c hc')
      simp only [RecordStore.answers, hsession.1, hsession.2, hshelf.1, hshelf.2]
      exact ⟨by rw [hrest], hshows⟩

/-- The empty shelf in the surroundings of a session. -/
def Session.emptyShelf (s : Session) : Shelf := ⟨[], s.surroundings, s.clock, s.nextItem⟩

/-- A session on an empty repository shows the empty shelf. -/
theorem shows_emptyShelf (hreg : s.registry = .bundled) (hdisk : s.disk = {}) (hready : s.Ready)
    (hclock : s.clock.now.Recordable) (huser : ∀ u ∈ s.user, u.Plain) : Shows s s.emptyShelf := by
  refine ⟨hreg, hready, rfl, rfl, rfl, hclock, huser,
    ⟨fun i hi => absurd hi List.not_mem_nil, List.nodup_nil⟩, ?_⟩
  rw [hdisk]
  exact Repository.atRest_empty

/-- **The store is a shelf.** Commands that are asked one after the other, from an empty repository on,
are answered as on a shelf, and leave the records of the shelf's items.  On a shelf a command that
fails leaves the items as they are, and no revision is higher than the number of commands, so that none
is too long for a numeral before there were `10 ^ Json.digitLimit` of them. -/
theorem store_refines_shelf (hreg : s.registry = .bundled) (hdisk : s.disk = {}) (hready : s.Ready)
    (hclock : s.clock.now.Recordable) (huser : ∀ u ∈ s.user, u.Plain) (hcs : ∀ c ∈ cs, c.Proper) :
    let session := answers Command.inSession cs s
    let shelf := answers Command.onShelf cs s.emptyShelf
    session.1 = shelf.1
      ∧ Repository.Represents session.2.disk shelf.2.contents
      ∧ (∀ ident, (run (Store.get ident) session.2).result = (run (Shelf.fetch ident) shelf.2).result)
      ∧ shelf.2.UpTo cs.length
      ∧ ∀ (c : Command) (h : Shelf) (e : Failure), (run c.onShelf h).result = .error e →
        (run c.onShelf h).state.items = h.items := by
  intro session shelf
  obtain ⟨hanswers, hshows⟩ := (shows_emptyShelf hreg hdisk hready hclock huser).answers hcs
  refine ⟨hanswers, hshows.represents, fun ident => ?_, ?_, fun c h e hc => Shelf.items_of_error hc⟩
  · obtain ⟨r, s', h', hget, hfetch, -⟩ := simulates_get ident _ _ hshows
    rw [hget.1, hfetch.1]
  · have hempty : s.emptyShelf.UpTo 0 := fun i hi => absurd hi List.not_mem_nil
    simpa using hempty.answers (Int.le_refl 0) cs

/-- A page is created and looked up, an action is asked of it that pages do not have, and it is
deleted. -/
theorem store_refines_shelf_page :
    let commands : List Command := [.create Kind.page.name [("name", "Home")], .get (itemName 0),
      .setUser (some "ann"), .dispatch "done" (itemName 0), .reopen, .delete (itemName 0), .list none]
    (answers Command.inSession commands (.starting {})).1
      = (answers Command.onShelf commands (Session.starting {}).emptyShelf).1 :=
  (store_refines_shelf rfl rfl ⟨rfl, rfl⟩ (by simp [Session.starting, Timestamp.Recordable])
    (by simp [Session.starting]) (by simp [Command.Proper, Text.plain_ofString])).1

end Runs

end RecordStore
