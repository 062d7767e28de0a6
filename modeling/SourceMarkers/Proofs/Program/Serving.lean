import SourceMarkers.Program.Run
import SourceMarkers.Proofs.Session.Loading
import SourceMarkers.Proofs.Session.Restart

/-!
# What a run of the program does

The program is written for any world, and says in which order a session is loaded,
served and shut down, and what is logged in between. On a machine this comes down to
the functions about which everything else is proved: loading is `Session.start`,
serving is `Session.serve`, and shutting down is `Session.shutdown`, each on the files
that the log has left behind.

Serving begins with the events of loading. As no event comes of a load, the first
response is the first thing that goes out.

## Main definitions

* `LogTarget.add`: The files with entries added to the log.
* `Program.sittingWithLog`: A session from its start to its end, with its log.

## Theorems

* `Machine.run_reloadOn`, `Machine.run_serve`, `Machine.run_shutdownOn`: Loading,
  serving and shutting down.
* `Program.run_of_opened`: A run that serves.
* `Program.output_of_opened`: What such a run puts out.
* `Program.files_of_not_run`: A run that does not serve leaves the files alone.
-/

namespace SourceMarkers

/-- The files with entries added to the log. -/
def LogTarget.add (l : LogTarget) (time : String) (entries : List Entry) (t : FileTree) :
    FileTree :=
  ((FileTree.disk.append l.path (l.octets time entries)).run t).2

namespace Machine

theorem run_onFiles {α : Type} (act : StateM FileTree α) (w : Machine) :
    (onFiles act).run w = ((act.run w.files).1, { w with files := (act.run w.files).2 }) := rfl

/-- What is done with the files of a machine is done with a tree of files. -/
theorem makeParent_eq (p : Path) : disk.makeParent p = onFiles (FileTree.disk.makeParent p) := by
  unfold Disk.makeParent
  cases p.parent? with
  | none => rfl
  | some directory => rfl

theorem run_reach (p : Path) (act : StateM FileTree (Except FileFault Unit)) (w : Machine) :
    (disk.reach p (onFiles act)).run w = (onFiles (FileTree.disk.reach p act)).run w := by
  unfold Disk.reach
  rw [run_bind, makeParent_eq, run_onFiles, run_onFiles, run_bind]
  rcases (FileTree.disk.makeParent p).run w.files with ⟨made?, made⟩
  cases made? with
  | error f => rfl
  | ok u => rfl

/-- Opening the log is done with the files. -/
theorem run_openOn (l : LogTarget) (w : Machine) :
    (l.openOn disk).run w = (onFiles (l.openOn FileTree.disk)).run w := run_reach ..

theorem run_saveOn (store : Store) (doc : Json.Value) (w : Machine) :
    (store.saveOn disk doc).run w = (onFiles (store.saveOn FileTree.disk doc)).run w := by
  have hreplace : (disk.replace store.path (Store.textOf doc)).run w =
      (onFiles (FileTree.disk.replace store.path (Store.textOf doc))).run w := run_reach ..
  unfold Store.saveOn
  rw [run_bind, hreplace, run_onFiles, run_onFiles, run_bind]
  rcases (FileTree.disk.replace store.path (Store.textOf doc)).run w.files with ⟨written?, t⟩
  cases written? with
  | error f => rfl
  | ok u => rfl

/-- The log of a machine is written to its files. -/
theorem run_tellOn (l : LogTarget) (time : String) (entries : List Entry) (w : Machine) :
    (l.tellOn (world time) entries).run w = ((), { w with files := l.add time entries w.files }) :=
  rfl

/-- A session loads what the files hold, and leaves the machine alone. -/
theorem run_reloadOn (s : Session) (store : Store) (w : Machine) :
    (s.reloadOn disk store).run w = (s.reload store w.files, w) := rfl

/-- A session is shut down in the files. -/
theorem run_shutdownOn (s : Session) (store : Store) (well : Bool) (w : Machine) :
    (s.shutdownOn disk store well).run w =
      ((s.shutdown store well w.files).1,
        { w with files := (s.shutdown store well w.files).2 }) := by
  cases well with
  | false => rfl
  | true =>
    unfold Session.shutdownOn
    rw [if_pos rfl, run_bind, run_saveOn]
    rfl

/-- A session serves what is to be read, and the log of it goes to the files. -/
theorem run_serve (l : LogTarget) (time : String) (s : Session) (waiting : List Event)
    (w : Machine) :
    let service := s.serveFrom none waiting w.input .ended
    (serve (l.tellOn (world time)) s waiting).run w =
      ((service.session, service.endedWell .ended),
        ⟨l.add time service.log w.files, [], w.output ++ service.output⟩) := rfl

end Machine

namespace Program

/-- What becomes of the files of a machine that serves an input, from the first entry of
    the log to the last, and what is put out. Each step finds the files that the log of
    the step before left. -/
def sittingWithLog (p : Plan) (time : String) (input : List UInt8) (t : FileTree) :
    List UInt8 × FileTree :=
  let store := Store.inDirectory p.scratch
  let begun := p.log.add time [started p.scratch] t
  let s := Session.start p.shorthand store begun
  let service := s.value.serve none input .ended
  let served := p.log.add time service.log (p.log.add time s.log begun)
  let ended := service.session.shutdown store (service.endedWell .ended) served
  (service.output, p.log.add time (ended.1.log ++ [stopped]) ended.2)

/-- Serving on a machine begins with no event that waits. -/
theorem run_serveOn (p : Plan) (time : String) (w : Machine) :
    (serveOn (Machine.world time) p).run w =
      ((), ⟨(sittingWithLog p time w.input w.files).2, [],
        w.output ++ (sittingWithLog p time w.input w.files).1⟩) := by
  unfold serveOn
  have hdisk : (Machine.world time).disk = Machine.disk := rfl
  have hserve : (Machine.world time).serve = Machine.serve := rfl
  -- No event waits when serving begins.
  simp only [run_bind, hdisk, hserve, Machine.run_tellOn, Machine.run_reloadOn,
    Session.events_reload, Machine.run_serve, Machine.run_shutdownOn]
  rfl

/-- A run with arguments that ask for it and a log that can be opened serves. -/
theorem run_of_opened (e : Environment) (arguments : List String) (input : List UInt8)
    (time : String) (t opened : FileTree) (o : Options)
    (hrun : Invocation.ofArguments arguments = .run o)
    (hopen : ((plan e o).log.openOn FileTree.disk).run t = (.ok (), opened)) :
    run e arguments input time t =
      ⟨0, (sittingWithLog (plan e o) time input opened).1,
        (sittingWithLog (plan e o) time input opened).2⟩ := by
  have hopened : ((plan e o).log.openOn (Machine.world time).disk).run ⟨t, input, []⟩ =
      (.ok (), ⟨opened, input, []⟩) := by
    show ((plan e o).log.openOn Machine.disk).run _ = _
    rw [Machine.run_openOn, Machine.run_onFiles, hopen]
  unfold run runOn
  simp only [hrun, run_bind, hopened, run_serveOn]
  rfl

/-- Such a run puts out the replies to the requests of the input, and nothing before
    them: loading has nothing to announce. -/
theorem output_of_opened (e : Environment) (arguments : List String) (input : List UInt8)
    (time : String) (t opened : FileTree) (o : Options)
    (hrun : Invocation.ofArguments arguments = .run o)
    (hopen : ((plan e o).log.openOn FileTree.disk).run t = (.ok (), opened)) :
    let p := plan e o
    let begun := p.log.add time [started p.scratch] opened
    let s := Session.start p.shorthand (Store.inDirectory p.scratch) begun
    (run e arguments input time t).output = s.value.chunks (requestLines input .ended) := by
  intro p begun s
  rw [run_of_opened e arguments input time t opened o hrun hopen]
  exact (Session.serve_eq s.value input .ended).2.1

/-- A run that is asked for something else, or wrongly, leaves the files alone. -/
theorem files_of_not_run (e : Environment) (arguments : List String) (input : List UInt8)
    (time : String) (t : FileTree) (h : ∀ o, Invocation.ofArguments arguments ≠ .run o) :
    (run e arguments input time t).files = t := by
  unfold run runOn
  cases hargs : Invocation.ofArguments arguments with
  | run o => exact absurd hargs (h o)
  | showHelp => rfl
  | showVersion => rfl
  | wrong => rfl

end Program

end SourceMarkers
