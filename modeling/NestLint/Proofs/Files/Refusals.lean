import NestLint.Config.Document

/-!
# What keeps a file from being written

Names that no file can have are refused at once. Where all names on a path can be names, whatever keeps a document from
being written there comes from the files themselves.

* `named_of_readText`: a file that is looked for has a name;
* `isOfSystem_of_makeDirectories`, `isOfSystem_of_writeDocument`: the faults in writing.
-/

namespace NestLint

/-- No name on the path holds the character that no name can hold. -/
def FilePath.Named (p : FilePath) : Prop := (p.parts.any fun name => name.contains '\x00') = false

theorem FilePath.Named.parent {p : FilePath} (h : p.Named) : p.parent.Named :=
  List.any_eq_false.2 fun name hname => List.any_eq_false.1 h name (List.dropLast_subset _ hname)

namespace FileTree

variable {t : FileTree} {p : FilePath} {fault : FileFault}

theorem named_of_readText (h : t.readText p ≠ .error .nameInvalid) : p.Named := by
  cases hp : p.parts.any fun name => name.contains '\x00' with
  | false => exact hp
  | true =>
    refine absurd ?_ h
    rw [readText, lookUp, locate, if_pos hp]
    rfl

/-- Where all names on a path can be names, only its length stands before following it. -/
theorem locate_of_named (hp : p.Named) : t.locate p =
    if pathLimit ≤ p.text.utf8ByteSize then .error .nameTooLong
    else t.follow (if p.isAbsolute then [] else t.start) p.parts := by
  rw [locate, if_neg (Bool.not_eq_true _ ▸ hp)]

theorem isOfSystem_of_follow {location : Location} {names : List String}
    (h : t.follow location names = .error fault) : fault.isOfSystem := by
  induction names generalizing location with
  | nil => cases h
  | cons name rest ih =>
    rw [follow] at h
    split at h
    · cases h
      rfl
    · split at h
      · cases h
        rfl
      · exact ih h
    · cases h
      rfl

theorem isOfSystem_of_locate (hp : p.Named) (h : t.locate p = .error fault) : fault.isOfSystem := by
  rw [locate_of_named hp] at h
  split at h
  · cases h
    rfl
  · exact isOfSystem_of_follow h

theorem isOfSystem_of_makeDirectory (hp : p.Named) (h : t.makeDirectory p = .error fault) : fault.isOfSystem := by
  rw [makeDirectory] at h
  cases hlocate : t.locate p with
  | error found =>
    rw [hlocate] at h
    cases h
    exact isOfSystem_of_locate hp hlocate
  | ok location =>
    simp only [hlocate, bind, Except.bind] at h
    split at h
    · cases h
      rfl
    · cases h

theorem eq_error_of_settle {made : Except FileFault FileTree} (h : (t.settle p made).2 = .error fault) :
    made = .error fault := by
  cases made with
  | ok t => cases h
  | error found =>
    rw [settle] at h
    dsimp only at h
    split at h
    · cases h
    · cases h
      rfl

theorem isOfSystem_of_makeDirectories (hp : p.Named) (h : (t.makeDirectories p).2 = .error fault) :
    fault.isOfSystem := by
  induction hn : p.parts.length generalizing p fault with
  | zero =>
    rw [makeDirectories] at h
    split at h
    · rw [dif_pos (List.length_eq_zero_iff.1 hn)] at h
      cases h
      rfl
    · exact isOfSystem_of_makeDirectory hp (eq_error_of_settle h)
  | succ n ih =>
    rw [makeDirectories] at h
    split at h
    · rw [dif_neg fun hnil => by simp [hnil] at hn] at h
      split at h
      · rename_i found hparent
        cases h
        exact ih hp.parent (by rw [hparent]) (by rw [FilePath.length_parts_parent, hn]; rfl)
      · exact isOfSystem_of_makeDirectory hp (eq_error_of_settle h)
    · exact isOfSystem_of_makeDirectory hp (eq_error_of_settle h)

/-- Whatever keeps a document from being written at a path of names comes from the files. -/
theorem isOfSystem_of_writeDocument {document : Json} (hp : p.Named)
    (h : (t.writeDocument p document).2 = .error fault) : fault.isOfSystem := by
  rw [writeDocument] at h
  split at h
  · rename_i found hmade
    cases h
    exact isOfSystem_of_makeDirectories hp.parent (by rw [hmade])
  · rename_i t' hmade
    split at h
    · cases h
    · rename_i found hwrite
      cases h
      rw [writeText, writable] at hwrite
      cases hlocate : t'.locate p with
      | error found =>
        rw [hlocate] at hwrite
        cases hwrite
        exact isOfSystem_of_locate hp hlocate
      | ok location =>
        simp only [hlocate, bind, Except.bind] at hwrite
        split at hwrite
        · rename_i hdirectory
          split at hdirectory
          · cases hdirectory
            cases hwrite
            rfl
          · cases hdirectory
        · cases hwrite

end FileTree

end NestLint
