import FixedSupply.Proofs.FirstFaults
import FixedSupply.Runner.Files

/-!
# Files after a write

A write to a path can be repeated with any content and is read back under the same path. It keeps every
directory, so a file at another place is found and read as before. Where the system refuses to write, it
does so for every content, and whether or not a file can be read there.
-/

namespace FixedSupply

namespace Files

variable {files written : Files} {path other : String} {content : Bytes}

section Insert

variable (files) (place : Place) (content : Bytes)

lemma get?_insert_self : (files.insert place content).get? place = some content := by
  simp [get?, insert]

lemma get?_insert_of_ne {other : Place} (h : other ≠ place) :
    (files.insert place content).get? other = files.get? other := by
  have hne : (other == place) = false := by simpa using h
  unfold get? insert
  rw [List.lookup_cons, hne]
  induction files.entries with
  | nil => rfl
  | cons entry rest ih =>
    obtain ⟨key, value⟩ := entry
    by_cases hkey : key = place
    · have hother : (other == key) = false := by simpa [hkey] using h
      simpa [hkey, List.lookup_cons, hother, hne] using ih
    · rw [List.filter_cons_of_pos (by simpa using hkey), List.lookup_cons, List.lookup_cons]
      cases other == key with
      | true => rfl
      | false => exact ih

@[simp] lemma refusal?_insert (other : Place) :
    (files.insert place content).refusal? other = files.refusal? other := rfl

lemma insert_insert (later : Bytes) :
    (files.insert place content).insert place later = files.insert place later := by
  simp [insert]

lemma isDirectory_insert {directory : Place} (h : files.isDirectory directory) :
    (files.insert place content).isDirectory directory := by
  unfold isDirectory at h ⊢
  rw [Bool.or_eq_true] at h ⊢
  apply h.imp_right
  intro hbelow
  obtain ⟨⟨other, bytes⟩, hmem, hother⟩ := List.any_eq_true.mp hbelow
  by_cases heq : other = place
  · exact List.any_eq_true.mpr ⟨(place, content), List.mem_cons_self, heq ▸ hother⟩
  · have hkept : (other, bytes) ∈ files.entries.filter fun entry => entry.1 != place :=
      List.mem_filter.mpr ⟨hmem, by simpa using heq⟩
    exact List.any_eq_true.mpr ⟨(other, bytes), List.mem_cons_of_mem _ hkept, hother⟩

end Insert

section Nodes

lemma node?_eq_file_iff {place : Place} {content : Bytes} :
    files.node? place = some (.file content) ↔ files.get? place = some content := by
  unfold node?
  cases files.get? place with
  | some found => simp
  | none =>
    cases files.isDirectory place with
    | true => simp
    | false => simp

lemma node?_eq_directory_iff {place : Place} :
    files.node? place = some .directory ↔ files.get? place = none ∧ files.isDirectory place := by
  unfold node?
  cases files.get? place with
  | some found => simp
  | none => simp

end Nodes

section Approach

lemma locate_eq_ok {directory place : Place} {name : String} (h : locate directory name = .ok place) :
    directory.step name = place := by
  unfold locate at h
  split at h
  · exact absurd h (by simp)
  · exact Except.ok.inj h

lemma enter_eq_ok_iff {directory place : Place} {name : String} :
    files.enter directory name = .ok place ↔
      locate directory name = .ok place ∧ files.node? place = some .directory := by
  unfold enter
  rw [bind_eq_ok_iff]
  constructor
  · rintro ⟨found, hlocate, hfound⟩
    cases hnode : files.node? found with
    | none => simp [hnode] at hfound
    | some node =>
      cases node with
      | file content => simp [hnode] at hfound
      | directory =>
        obtain rfl : found = place := by simpa [hnode] using hfound
        exact ⟨hlocate, hnode⟩
  · rintro ⟨hlocate, hnode⟩
    refine ⟨place, hlocate, ?_⟩
    rw [hnode]
    rfl

/-- An approach checks the path and enters the directories on it, one after the other. -/
lemma approach_eq_ok_iff {parsed : Path} {directory : Place} :
    files.approach path = .ok (parsed, directory) ↔
      path.isEmpty = false ∧ ¬pathLimit < path.utf8ByteSize ∧ Path.ofString path = parsed ∧
        parsed.names.dropLast.foldlM files.enter parsed.start = .ok directory := by
  unfold approach
  cases path.isEmpty with
  | true => simp [bind, Except.bind]
  | false =>
    by_cases hlimit : pathLimit < path.utf8ByteSize
    · simp [hlimit, bind, Except.bind]
    · have hrest : (do
          let found ← (Path.ofString path).names.dropLast.foldlM files.enter (Path.ofString path).start
          return (Path.ofString path, found)) = Except.ok (parsed, directory) ↔
          Path.ofString path = parsed ∧
            parsed.names.dropLast.foldlM files.enter parsed.start = .ok directory := by
        rw [bind_eq_ok_iff]
        constructor
        · rintro ⟨found, hfold, hpair⟩
          obtain ⟨rfl, rfl⟩ : Path.ofString path = parsed ∧ found = directory := by
            simpa using hpair
          exact ⟨rfl, hfold⟩
        · rintro ⟨rfl, hfold⟩
          exact ⟨directory, hfold, rfl⟩
      simpa [hlimit] using hrest

lemma foldlM_enter_eq_ok {names : List String} {start directory : Place}
    (h : names.foldlM files.enter start = .ok directory) : names.foldl Place.step start = directory := by
  induction names generalizing start with
  | nil => exact Except.ok.inj h
  | cons name names ih =>
    rw [List.foldlM_cons] at h
    obtain ⟨place, henter, hrest⟩ := bind_eq_ok_iff.mp h
    obtain ⟨hlocate, -⟩ := enter_eq_ok_iff.mp henter
    rw [List.foldl_cons, locate_eq_ok hlocate]
    exact ih hrest

variable (files written) in
/-- All directories of the first files are directories of the second. -/
def Widens : Prop :=
  ∀ place, files.node? place = some .directory → written.node? place = some .directory

lemma Widens.foldlM_enter (h : files.Widens written) {names : List String} {start directory : Place}
    (hfold : names.foldlM files.enter start = .ok directory) :
    names.foldlM written.enter start = .ok directory := by
  induction names generalizing start with
  | nil => exact hfold
  | cons name names ih =>
    rw [List.foldlM_cons] at hfold ⊢
    obtain ⟨place, henter, hrest⟩ := bind_eq_ok_iff.mp hfold
    obtain ⟨hlocate, hnode⟩ := enter_eq_ok_iff.mp henter
    have hwritten : written.enter start name = .ok place := enter_eq_ok_iff.mpr ⟨hlocate, h place hnode⟩
    exact bind_eq_ok_iff.mpr ⟨place, hwritten, ih hrest⟩

lemma widens_insert {place : Place} (content : Bytes) (h : files.node? place ≠ some .directory) :
    files.Widens (files.insert place content) := by
  intro directory hdirectory
  obtain ⟨hnone, hbelow⟩ := node?_eq_directory_iff.mp hdirectory
  have hne : directory ≠ place := fun heq => h (heq ▸ hdirectory)
  refine node?_eq_directory_iff.mpr ⟨?_, isDirectory_insert files place content hbelow⟩
  rw [get?_insert_of_ne files place content hne, hnone]

end Approach

/-- The path leads to the place: all names on it but the last are those of directories, and no slash
follows the last one. -/
def Leads (files : Files) (path : String) (place : Place) : Prop :=
  ∃ directory name, files.approach path = .ok (Path.ofString path, directory) ∧
    (Path.ofString path).names.getLast? = some name ∧ locate directory name = .ok place ∧
      (Path.ofString path).closed = false

section Leads

variable {place : Place}

lemma Leads.place_eq (h : files.Leads path place) : (Path.ofString path).place = place := by
  obtain ⟨directory, name, happroach, hlast, hlocate, -⟩ := h
  obtain ⟨-, -, -, hfold⟩ := approach_eq_ok_iff.mp happroach
  have hnames := List.dropLast_append_getLast? name hlast
  rw [Path.place, ← hnames, List.foldl_append, foldlM_enter_eq_ok hfold]
  exact locate_eq_ok hlocate

lemma Leads.of_widens (h : files.Leads path place) (hwidens : files.Widens written) :
    written.Leads path place := by
  obtain ⟨directory, name, happroach, hlast, hlocate, hclosed⟩ := h
  obtain ⟨hempty, hlimit, -, hfold⟩ := approach_eq_ok_iff.mp happroach
  refine ⟨directory, name, ?_, hlast, hlocate, hclosed⟩
  exact approach_eq_ok_iff.mpr ⟨hempty, hlimit, rfl, hwidens.foldlM_enter hfold⟩

/-- A name alone leads to its place in the working directory. -/
lemma leads_of_name {name : String} (hpath : Path.ofString name = ⟨[], [name], false⟩)
    (hempty : name.isEmpty = false) (hlocate : locate [] name = .ok [name])
    (hlimit : ¬pathLimit < name.utf8ByteSize) : files.Leads name [name] := by
  refine ⟨[], name, approach_eq_ok_iff.mpr ⟨hempty, hlimit, rfl, ?_⟩, ?_, hlocate, ?_⟩
  · rw [hpath]
    rfl
  · rw [hpath]
    rfl
  · rw [hpath]

/-- A file is read where its path leads to. -/
theorem read_eq_ok_iff :
    files.read path = .ok content ↔
      ∃ place, files.Leads path place ∧ files.get? place = some content := by
  unfold read
  rw [bind_eq_ok_iff]
  constructor
  · rintro ⟨⟨parsed, directory⟩, happroach, h⟩
    obtain ⟨-, -, rfl, -⟩ := approach_eq_ok_iff.mp happroach
    cases hlast : (Path.ofString path).names.getLast? with
    | none => simp [hlast] at h
    | some name =>
      simp only [hlast] at h
      obtain ⟨place, hlocate, h⟩ := bind_eq_ok_iff.mp h
      cases hnode : files.node? place with
      | none => simp [hnode] at h
      | some node =>
        cases node with
        | directory => simp [hnode] at h
        | file found =>
          cases hclosed : (Path.ofString path).closed with
          | true => simp [hnode, hclosed] at h
          | false =>
            obtain rfl : found = content := by simpa [hnode, hclosed] using h
            have hget := node?_eq_file_iff.mp hnode
            exact ⟨place, ⟨directory, name, happroach, hlast, hlocate, hclosed⟩, hget⟩
  · rintro ⟨place, ⟨directory, name, happroach, hlast, hlocate, hclosed⟩, hget⟩
    refine ⟨_, happroach, ?_⟩
    have hnode := node?_eq_file_iff.mpr hget
    simp [hlast, hlocate, hnode, hclosed, bind, Except.bind]

/-- At the place that its path leads to, a write makes or replaces a file, unless that is a directory or the
system refuses. -/
lemma write_of_leads (h : files.Leads path place) (content : Bytes) :
    files.write path content =
      if files.node? place = some .directory then .error .isDirectory
      else match files.refusal? place with
        | some fault => .error fault
        | none => .ok (files.insert place content) := by
  obtain ⟨directory, name, happroach, hlast, hlocate, hclosed⟩ := h
  unfold write
  by_cases hnode : files.node? place = some .directory
  · simp [happroach, hlast, hlocate, hclosed, hnode, bind, Except.bind]
  · cases hrefusal : files.refusal? place with
    | none => simp [happroach, hlast, hlocate, hclosed, hnode, hrefusal, bind, Except.bind]
    | some fault => simp [happroach, hlast, hlocate, hclosed, hnode, hrefusal, bind, Except.bind]

lemma exists_leads_of_write (h : files.write path content = .ok written) :
    ∃ place, files.Leads path place := by
  unfold write at h
  obtain ⟨⟨parsed, directory⟩, happroach, h⟩ := bind_eq_ok_iff.mp h
  obtain ⟨-, -, rfl, -⟩ := approach_eq_ok_iff.mp happroach
  cases hlast : (Path.ofString path).names.getLast? with
  | none => simp [hlast] at h
  | some name =>
    cases hclosed : (Path.ofString path).closed with
    | true => simp [hlast, hclosed, bind, Except.bind] at h
    | false =>
      simp only [hlast, hclosed] at h
      obtain ⟨place, hlocate, -⟩ := bind_eq_ok_iff.mp h
      exact ⟨place, directory, name, happroach, hlast, hlocate, hclosed⟩

theorem write_eq_ok_iff :
    files.write path content = .ok written ↔
      ∃ place, files.Leads path place ∧ files.node? place ≠ some .directory ∧
        files.refusal? place = none ∧ files.insert place content = written := by
  constructor
  · intro h
    obtain ⟨place, hleads⟩ := exists_leads_of_write h
    rw [write_of_leads hleads] at h
    by_cases hnode : files.node? place = some .directory
    · simp [hnode] at h
    · rw [if_neg hnode] at h
      cases hrefusal : files.refusal? place with
      | some fault => simp [hrefusal] at h
      | none =>
        rw [hrefusal] at h
        exact ⟨place, hleads, hnode, hrefusal, Except.ok.inj h⟩
  · rintro ⟨place, hleads, hnode, hrefusal, rfl⟩
    rw [write_of_leads hleads, if_neg hnode, hrefusal]

lemma exists_write (h : files.write path content = .ok written) (later : Bytes) :
    ∃ rewritten, files.write path later = .ok rewritten := by
  obtain ⟨place, hleads, hnode, hrefusal, -⟩ := write_eq_ok_iff.mp h
  exact ⟨files.insert place later, write_eq_ok_iff.mpr ⟨place, hleads, hnode, hrefusal, rfl⟩⟩

lemma read_write (h : files.write path content = .ok written) : written.read path = .ok content := by
  obtain ⟨place, hleads, hnode, -, rfl⟩ := write_eq_ok_iff.mp h
  have hkept := hleads.of_widens (widens_insert content hnode)
  exact read_eq_ok_iff.mpr ⟨place, hkept, get?_insert_self files place content⟩

lemma read_write_of_ne (h : files.write path content = .ok written)
    (hne : (Path.ofString other).place ≠ (Path.ofString path).place) {found : Bytes}
    (hread : files.read other = .ok found) : written.read other = .ok found := by
  obtain ⟨place, hleads, hnode, -, rfl⟩ := write_eq_ok_iff.mp h
  obtain ⟨otherPlace, hother, hget⟩ := read_eq_ok_iff.mp hread
  have hplaces : otherPlace ≠ place := by rwa [hleads.place_eq, hother.place_eq] at hne
  have hkept := hother.of_widens (widens_insert content hnode)
  refine read_eq_ok_iff.mpr ⟨otherPlace, hkept, ?_⟩
  rw [get?_insert_of_ne files place content hplaces, hget]

lemma write_write (h : files.write path content = .ok written) {later : Bytes} {rewritten : Files}
    (hlater : files.write path later = .ok rewritten) : written.write path later = .ok rewritten := by
  obtain ⟨place, hleads, hnode, hrefusal, rfl⟩ := write_eq_ok_iff.mp h
  obtain ⟨laterPlace, hlaterLeads, -, -, rfl⟩ := write_eq_ok_iff.mp hlater
  -- A path leads to one place only, so the second write replaces the file of the first.
  obtain rfl : laterPlace = place := hlaterLeads.place_eq.symm.trans hleads.place_eq
  have hfile : (files.insert laterPlace content).node? laterPlace = some (.file content) :=
    node?_eq_file_iff.mpr (get?_insert_self files laterPlace content)
  have hkept := hleads.of_widens (widens_insert content hnode)
  refine write_eq_ok_iff.mpr ⟨laterPlace, hkept, ?_, ?_, insert_insert files laterPlace content later⟩
  · simp [hfile]
  · rw [refusal?_insert, hrefusal]

end Leads

section Standing

variable (files path) in
/-- Reading finds out what stands at the end of a path. -/
lemma read_eq_of_standing? :
    match files.standing? path with
    | none => ∃ fault : FileFault, files.read path = .error fault
    | some .directory => files.read path = .error .isDirectory
    | some (.file content) => files.read path = .ok content := by
  unfold standing? read
  cases files.approach path with
  | error fault => exact ⟨fault, rfl⟩
  | ok approached =>
    obtain ⟨parsed, directory⟩ := approached
    dsimp only [bind, Except.bind]
    cases parsed.names.getLast? with
    | none => rfl
    | some name =>
      dsimp only
      cases locate directory name with
      | error fault => exact ⟨fault, rfl⟩
      | ok place =>
        dsimp only
        cases files.node? place with
        | none => exact ⟨.missing, rfl⟩
        | some node =>
          cases node with
          | directory => simp [Option.filter]
          | file content =>
            cases parsed.closed with
            | true => exact ⟨.notDirectory, rfl⟩
            | false => simp [Option.filter]

lemma read_ne_ok_of_standing? (h : files.standing? path = none) (content : Bytes) :
    files.read path ≠ .ok content := by
  have hread := files.read_eq_of_standing? path
  rw [h] at hread
  obtain ⟨fault, hfault⟩ := hread
  rw [hfault]
  exact nofun

lemma isSome_standing?_of_read (h : files.read path = .ok content) : (files.standing? path).isSome := by
  rw [Option.isSome_iff_ne_none]
  exact fun hnone => read_ne_ok_of_standing? hnone content h

lemma standing?_eq_none_of_missing (h : files.read path = .error .missing) :
    files.standing? path = none := by
  have hread := files.read_eq_of_standing? path
  rw [h] at hread
  cases hstanding : files.standing? path with
  | none => rfl
  | some node =>
    cases node with
    | directory => simp [hstanding] at hread
    | file content => simp [hstanding] at hread

end Standing

end Files

end FixedSupply
