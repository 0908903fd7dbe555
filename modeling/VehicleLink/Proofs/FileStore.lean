import VehicleLink.Proofs.DeviceFile
import VehicleLink.Proofs.Places
import VehicleLink.Store.File

/-!
# Saves to a file

A save makes the directories that the file is in (`prepared`), writes the draft and moves it over
the file. What a load then gives is told by what is at the end of the path (`load_eq`), and each of
the three steps that fails leaves that as it is (`load_of_save_error`). A save that succeeds makes
it the file for the devices (`load_of_save_ok`). Nothing beside the file and its draft is written.

Making the directories changes no file. But a path that steps up out of a directory that was
missing leads to something only after it has been made. So what is loaded after a save that fails
is what was loaded before if everything that the path steps up out of was there
(`load_prepared`), and can be something else if it was not (`save_error_changes_load`).
-/

namespace VehicleLink.Store.File

open FileTree

/-! ## Loading -/

/-- What is loaded when something is at the end of the path. -/
def loaded : Option Kind → Except StoreError DeviceSet
  | some (.file bytes) => DeviceFile.decode bytes
  | some .directory => .error (.read FileError.isADirectory.message)
  | none => .ok {}

theorem load_eq (s : File) : s.load = loaded (s.tree.view? s.path) := by
  rw [load, contains, FileTree.read, view?]
  rcases s.tree.look s.path with e | _ | inner <;> rfl

/-! ## The draft -/

/-- The draft of a path that ends in a name is beside it; any other path is its own draft. -/
theorem draft_cases (path : Path) :
    draft path = path ∨ ∃ dirs name other, path.steps = dirs ++ [name] ∧
      draft path = { steps := dirs ++ [other] } ∧ name ≠ Path.up ∧ other ≠ Path.up := by
  rw [draft, Path.withExtension]
  rcases hname : path.name? with _ | name
  · exact .inl rfl
  · rw [Path.name?] at hname
    rcases hlast : path.steps.getLast? with _ | last <;> simp only [hlast] at hname
    · cases hname
    · split at hname
      · cases hname
      · rename_i hup
        cases hname
        refine .inr ⟨path.steps.dropLast, name, _, ?_, rfl, hup, fun h => ?_⟩
        · exact (List.dropLast_append_getLast? name hlast).symm
        · -- Two points are shorter than the ending.
          have hlength : (Path.stem name.toList ++ '.' :: "tmp".toList).length =
              Path.up.toList.length := by
            rw [← h]
            exact congrArg List.length String.toList_ofList.symm
          rw [List.length_append, show ('.' :: "tmp".toList).length = 4 by decide,
            show Path.up.toList.length = 2 by decide] at hlength
          omega

/-- A file is not at the place of its draft, unless it is the draft. -/
theorem draft_eq {t : FileTree} {path : Path} {q : Place} (hdir : path.directory = false)
    (h : t.leads? path = some q) (hdraft : t.leads? (draft path) = some q) :
    draft path = path := by
  rcases draft_cases path with heq | ⟨dirs, name, other, hsteps, heq, hname, hother⟩
  · exact heq
  · have hreach : ∀ {p : Path}, t.leads? p = some q → t.reach? [] p.steps = some q := by
      intro p hp
      rw [leads?_eq] at hp
      split at hp
      · exact hp
      · cases hp
    have hsame : name = other :=
      reach?_name_injective hname hother (hsteps ▸ hreach h) (by simpa [heq] using hreach hdraft)
    have hblank : path.blank = false := Path.blank_of_defect (defect?_of_leads? h)
    obtain ⟨steps, directory, blank⟩ := path
    cases hdir
    cases hblank
    rw [heq, ← hsame, ← hsteps]

/-! ## Saving -/

variable {s s' : File} {devices : DeviceSet} {e : StoreError} {q : Place}

/-- The tree in which a save writes the draft. -/
def prepared (s : File) : FileTree := (s.tree.makeDirectories s.path.parent).2

/-- The steps of a save. One that fails writes nothing, or writes the draft and does not move it. -/
theorem save_steps {r : Except StoreError Unit} (h : s.save devices = (r, s')) :
    s'.path = s.path ∧
      ((∃ e, r = .error e) ∧
          (s'.tree = s.prepared ∨
            s.prepared.write (draft s.path) (DeviceFile.encode devices) = .ok s'.tree ∧
              ∃ reason, s'.tree.rename (draft s.path) s.path = .error reason) ∨
        r = .ok () ∧
          ∃ t, s.prepared.write (draft s.path) (DeviceFile.encode devices) = .ok t ∧
            t.rename (draft s.path) s.path = .ok s'.tree) := by
  rw [save] at h
  rw [prepared]
  rcases hmade : (s.tree.makeDirectories s.path.parent).1 with reason | _ <;>
    simp only [hmade] at h
  · cases h
    exact ⟨rfl, .inl ⟨⟨_, rfl⟩, .inl rfl⟩⟩
  rcases hwrite : (s.tree.makeDirectories s.path.parent).2.write (draft s.path)
      (DeviceFile.encode devices) with reason | t <;> simp only [hwrite] at h
  · cases h
    exact ⟨rfl, .inl ⟨⟨_, rfl⟩, .inl rfl⟩⟩
  rcases hrename : t.rename (draft s.path) s.path with reason | t' <;>
    simp only [hrename] at h <;> cases h
  · exact ⟨rfl, .inl ⟨⟨_, rfl⟩, .inr ⟨rfl, reason, hrename⟩⟩⟩
  · exact ⟨rfl, .inr ⟨rfl, t, rfl, hrename⟩⟩

theorem save_error (h : s.save devices = (.error e, s')) :
    s'.path = s.path ∧ (s'.tree = s.prepared ∨
      s.prepared.write (draft s.path) (DeviceFile.encode devices) = .ok s'.tree ∧
        ∃ reason, s'.tree.rename (draft s.path) s.path = .error reason) := by
  obtain ⟨hpath, ⟨-, hsteps⟩ | ⟨hok, -⟩⟩ := save_steps h
  · exact ⟨hpath, hsteps⟩
  · cases hok

/-- What a save that succeeds does: the file is there for the devices, the draft is not, unless it
is the file, and every file at another place is as it was. -/
theorem save_ok_places (h : s.save devices = (.ok (), s')) :
    s'.path = s.path ∧ s.path.directory = false ∧ ∃ old new,
      s'.tree.leads? (draft s.path) = some old ∧ s'.tree.leads? s.path = some new ∧
      ∀ q, s'.tree.kind? q =
        if q = new then some (.file (DeviceFile.encode devices))
        else if q = old then none
        else s.prepared.kind? q := by
  obtain ⟨hpath, ⟨⟨e, he⟩, -⟩ | ⟨-, t, hwrite, hrename⟩⟩ := save_steps h
  · cases he
  obtain ⟨-, d, hd, -, hwritten⟩ := write_ok hwrite
  obtain ⟨hdir, old, new, bytes, hold, hnew, hfile, -, hrenamed⟩ := rename_ok hrename
  -- The draft is what is moved.
  obtain rfl : d = old := by
    rw [leads?_write hwrite, hd] at hold
    exact Option.some.inj hold
  obtain rfl : DeviceFile.encode devices = bytes := by
    rw [hwritten, if_pos rfl] at hfile
    cases hfile
    rfl
  refine ⟨hpath, hdir, d, new, ?_, ?_, fun q => ?_⟩
  · rw [leads?_rename hrename, hold]
  · rw [leads?_rename hrename, hnew]
  · rw [hrenamed, hwritten]
    by_cases hq : q = d
    · simp [hq]
    · simp [hq]

theorem load_of_save_ok (h : s.save devices = (.ok (), s')) : s'.load = .ok devices := by
  obtain ⟨hpath, hdir, old, new, -, hnew, hkinds⟩ := save_ok_places h
  have hview : s'.tree.view? s.path = some (.file (DeviceFile.encode devices)) :=
    view?_of_file hdir hnew (by rw [hkinds, if_pos rfl])
  rw [load_eq, hpath, hview, loaded, DeviceFile.decode_encode]

theorem draft_of_save_ok (h : s.save devices = (.ok (), s')) :
    draft s.path = s.path ∨ s'.tree.contains (draft s.path) = false := by
  obtain ⟨-, hdir, old, new, hold, hnew, hkinds⟩ := save_ok_places h
  by_cases hsame : old = new
  · exact .inl (draft_eq hdir hnew (hsame ▸ hold))
  · refine .inr ?_
    rw [contains_eq, view?_eq, hold, Option.bind_some, hkinds, if_neg hsame, if_pos rfl]
    rfl

theorem file?_of_save_ok (h : s.save devices = (.ok (), s')) (hfile : s'.tree.leads? s.path ≠ some q)
    (hdraft : s'.tree.leads? (draft s.path) ≠ some q) : s'.tree.file? q = s.tree.file? q := by
  obtain ⟨-, -, old, new, hold, hnew, hkinds⟩ := save_ok_places h
  have hq : s'.tree.kind? q = s.prepared.kind? q := by
    rw [hkinds, if_neg (by rintro rfl; exact hfile hnew),
      if_neg (by rintro rfl; exact hdraft hold)]
  rw [← (grows_makeDirectories s.path.parent s.tree).file? q, FileTree.file?, FileTree.file?, hq,
    prepared]

/-- A save that fails loads as if it had made the directories alone. -/
theorem load_of_save_error (h : s.save devices = (.error e, s')) :
    s'.load = ({ s with tree := s.prepared } : File).load := by
  obtain ⟨hpath, htree | ⟨hwrite, reason, hrename⟩⟩ := save_error h
  · rw [load_eq, load_eq, hpath, htree]
  obtain ⟨hdraft, d, hd, hbefore, hkinds⟩ := write_ok hwrite
  have hleads := leads?_write hwrite s.path
  suffices hview : s'.tree.view? s.path = s.prepared.view? s.path by
    rw [load_eq, load_eq, hpath, hview]
  rcases hplace : s.prepared.leads? s.path with _ | q
  · rw [view?_eq, view?_eq, hleads, hplace]
    rfl
  by_cases hq : q = d
  · subst hq
    have hfile : s'.tree.kind? q = some (.file (DeviceFile.encode devices)) := by
      rw [hkinds, if_pos rfl]
    have hd' : s'.tree.leads? (draft s.path) = some q := (leads?_write hwrite _).trans hd
    cases hdir : s.path.directory with
    | false =>
      -- The draft is the file and would have been moved to where it is.
      rw [rename_self (view?_of_file hdraft hd' hfile) hd' (hleads.trans hplace) hdir] at hrename
      cases hrename
    | true =>
      rw [view?_of_no_directory hdir hplace hbefore,
        view?_of_no_directory hdir (hleads.trans hplace) (by simp [hfile])]
  · rw [view?_eq, view?_eq, hleads, hplace, Option.bind_some, Option.bind_some, hkinds, if_neg hq]

theorem load_prepared (h : Grounded s.path s.tree) :
    ({ s with tree := s.prepared } : File).load = s.load := by
  rw [load_eq, load_eq, prepared, view?_makeDirectories h]

theorem file?_of_save_error (h : s.save devices = (.error e, s'))
    (hdraft : s'.tree.leads? (draft s.path) ≠ some q) : s'.tree.file? q = s.tree.file? q := by
  rw [← (grows_makeDirectories s.path.parent s.tree).file? q, ← prepared]
  obtain ⟨-, htree | ⟨hwrite, -⟩⟩ := save_error h
  · rw [htree]
  · obtain ⟨-, d, hd, -, hkinds⟩ := write_ok hwrite
    rw [FileTree.file?, FileTree.file?, hkinds, if_neg]
    rintro rfl
    exact hdraft ((leads?_write hwrite _).trans hd)

/-- Nothing is kept where an empty path leads: no devices are loaded from there, and a save fails and
leaves the tree as it is. -/
theorem nowhere_keeps_nothing (tree : FileTree) (devices : DeviceSet) :
    let s : File := { path := .nowhere, tree }
    s.load = .ok {} ∧ s.save devices = (.error (.write FileError.notFound.message), s) :=
  ⟨rfl, rfl⟩

/-! ## All or nothing -/

/-- A path with nothing at its end is loaded as no devices. A save that succeeds is loaded as what
was saved, leaves no draft beside the file, and changes no other file. A save that fails is loaded
as what was there when the directories of the file had been made, which is what was there before if
everything was there that the path steps up out of; the draft is the only file that it can change. -/
theorem save_all_or_nothing (s : File) (devices : DeviceSet) :
    (s.tree.contains s.path = false → s.load = .ok {}) ∧
    (∀ s', s.save devices = (.ok (), s') →
      s'.path = s.path ∧ s'.load = .ok devices ∧
      (draft s.path = s.path ∨ s'.tree.contains (draft s.path) = false) ∧
      ∀ q, s'.tree.place s.path ≠ .ok q → s'.tree.place (draft s.path) ≠ .ok q →
        s'.tree.file? q = s.tree.file? q) ∧
    ∀ e s', s.save devices = (.error e, s') →
      s'.path = s.path ∧ s'.load = ({ s with tree := s.prepared } : File).load ∧
      (Grounded s.path s.tree → s'.load = s.load) ∧
      ∀ q, s'.tree.place (draft s.path) ≠ .ok q → s'.tree.file? q = s.tree.file? q := by
  refine ⟨fun hmissing => ?_, fun s' hok => ⟨(save_steps hok).1, load_of_save_ok hok,
    draft_of_save_ok hok, fun q hfile hdraft => ?_⟩, fun e s' herror => ⟨(save_steps herror).1,
    load_of_save_error herror, fun hgrounded => ?_, fun q hdraft => ?_⟩⟩
  · rw [load, hmissing]
    rfl
  · exact file?_of_save_ok hok (fun h => hfile (place_eq_ok.mpr h))
      fun h => hdraft (place_eq_ok.mpr h)
  · rw [load_of_save_error herror, load_prepared hgrounded]
  · exact file?_of_save_error herror fun h => hdraft (place_eq_ok.mpr h)

/-- A first save below a missing directory, and one that fails because a directory is in the place
of the draft, on a path with a step up out of a directory that is there. -/
theorem save_all_or_nothing_first_and_blocked :
    let devices : DeviceSet := { lastConnected := some ⟨0, 0, 0, 0, 0, 10⟩ }
    let first : File :=
      { path := { steps := ["data", "devices.cbor"] }, tree := [("notes", .file [7])] }
    let blocked : File :=
      { path := { steps := ["b", "..", "devices.cbor"] }
        tree := [("b", .directory []), ("devices.tmp", .directory []),
          ("devices.cbor", .file (DeviceFile.encode devices))] }
    (first.tree.contains first.path = false ∧ first.load = .ok {}) ∧
    (∃ s', first.save devices = (.ok (), s') ∧ s'.load = .ok devices ∧
      (draft first.path = first.path ∨ s'.tree.contains (draft first.path) = false) ∧
      s'.tree.place first.path ≠ .ok ["notes"] ∧ s'.tree.place (draft first.path) ≠ .ok ["notes"] ∧
      s'.tree.file? ["notes"] = first.tree.file? ["notes"]) ∧
    ∃ e s', blocked.save {} = (.error e, s') ∧ Grounded blocked.path blocked.tree ∧
      s'.load = blocked.load ∧ s'.tree.place (draft blocked.path) ≠ .ok ["devices.cbor"] ∧
      s'.tree.file? ["devices.cbor"] = blocked.tree.file? ["devices.cbor"] := by
  intro devices first blocked
  have hmissing : first.tree.contains first.path = false := by decide
  have hgrounded : Grounded blocked.path blocked.tree := by
    intro pre post hsteps
    rcases pre with _ | ⟨step, _ | ⟨step', _ | ⟨step'', pre⟩⟩⟩ <;>
      simp [blocked, Path.up] at hsteps
    obtain ⟨rfl, -⟩ := hsteps
    rfl
  obtain ⟨hload, hok, -⟩ := save_all_or_nothing first devices
  obtain ⟨-, -, herror⟩ := save_all_or_nothing blocked {}
  refine ⟨⟨hmissing, hload hmissing⟩, ⟨_, rfl, ?_⟩, ⟨_, _, rfl, hgrounded, ?_⟩⟩
  · have hfile : (first.save devices).2.tree.place first.path ≠ .ok ["notes"] :=
      place_eq_ok.not.mpr (by decide)
    have hdraft : (first.save devices).2.tree.place (draft first.path) ≠ .ok ["notes"] :=
      place_eq_ok.not.mpr (by decide)
    obtain ⟨-, hloaded, hgone, hothers⟩ := hok _ rfl
    exact ⟨hloaded, hgone, hfile, hdraft, hothers _ hfile hdraft⟩
  · have hdraft : (blocked.save {}).2.tree.place (draft blocked.path) ≠ .ok ["devices.cbor"] :=
      place_eq_ok.not.mpr (by decide)
    obtain ⟨-, -, hkept, hothers⟩ := herror _ _ rfl
    exact ⟨hkept hgrounded, hdraft, hothers _ hdraft⟩

/-- A save that fails can change what is loaded: it has made a directory that the path steps up out
of, behind which a directory is where the file should be. -/
theorem save_error_changes_load :
    let devices : DeviceSet := { lastConnected := some ⟨0, 0, 0, 0, 0, 10⟩ }
    let s : File := { path := { steps := ["a", "..", "b"] }, tree := [("b", .directory [])] }
    ∃ e s', s.save devices = (.error e, s') ∧ s.load = .ok {} ∧
      s'.load = .error (.read FileError.isADirectory.message) :=
  ⟨_, _, rfl, rfl, rfl⟩

end VehicleLink.Store.File
