import RpcContract.Proofs.Files.Walk
import RpcContract.Proofs.OpenRpc.Emitted

/-! What the making of a document leaves of the files. Before the document is valid nothing is
written but a copy of one that is not, under a name of its own; where it is written, the file holds
its text, and the file beside it the checksum of the text. -/

namespace RpcContract

namespace Disk

/-- A new file in a directory, and nothing else changed. -/
def AddsFile (disk : Disk) (dir name text : String) (disk' : Disk) : Prop :=
  ∃ entries above, disk.root.follow [] (disk.partsOf dir) = .ok (.directory entries, above) ∧
    disk.root.stands (above ++ [name]) = none ∧
    disk.Puts (above ++ [name]) (.text text) disk'

theorem AddsFile.content_kept {disk disk' : Disk} {dir name text path : String} {content : Content}
    (h : disk.AddsFile dir name text disk') (hc : disk.content path = .ok content) :
    disk'.content path = .ok content := by
  obtain ⟨entries, above, -, hnone, hputs⟩ := h
  obtain ⟨names, hl⟩ := content_eq_ok_iff.mp hc
  obtain ⟨-, -, -, -, -, -, -, -, -, hstands⟩ := of_locate_file hl
  have hne : names ≠ above ++ [name] := by
    rintro rfl
    simp [hnone] at hstands
  exact content_eq_ok_iff.mpr ⟨names, hputs.locate_kept hl hne⟩

theorem addsFile_of_write {disk disk' : Disk} {dir name text : String} (hname : Path.IsName name)
    (hnone : disk.at? (Path.join dir name) = none)
    (h : disk.write (Path.join dir name) text = .ok disk') : disk.AddsFile dir name text disk' := by
  obtain ⟨parts, last, entries, above, hparts, hf, hlast, hputs, -⟩ := puts_of_write h
  obtain ⟨parts', hjoin, hdir⟩ := disk.partsOf_join dir hname
  obtain ⟨rfl, hsame⟩ := List.append_inj' (hparts.symm.trans hjoin) rfl
  obtain rfl := List.singleton_inj.mp hsame
  refine ⟨entries, above, ?_, ?_, hputs⟩
  · rcases hdir with hdir | hdir
    · rwa [hdir]
    · rw [hdir]
      exact FileTree.follow_concat_empty rfl hf
  · cases hat : disk.root.at? (above ++ [last]) with
    | none => simp [FileTree.stands, hat]
    | some t =>
      have hl : disk.locate (Path.join dir last) = .ok (t, above ++ [last]) := by
        refine locate_eq_ok_iff.mpr ⟨Path.join_ne_empty dir hname, ?_⟩
        rw [hparts]
        exact FileTree.follow_concat_of_kept (fun _ => id) .here .here rfl rfl hf hlast hat
      rw [at?_of_locate hl] at hnone
      cases hnone

end Disk

namespace OpenRpc

/-- What tells the file of a document that is not valid from all others, as the names of temporary
files do: nothing stands under the name that it makes. -/
structure FreshStamp (disk : Disk) (dir stamp : String) : Prop where
  noSlash : '/' ∉ stamp.toList
  unused : disk.at? (dumpPath dir stamp) = none

/-- A document that is not valid is kept in a new file of the directory for such documents. -/
def Dumps (disk : Disk) (dir stamp : String) (document : Json) (disk' : Disk) : Prop :=
  disk.AddsFile dir ("openrpc-invalid-" ++ stamp ++ ".json") document.pretty disk'

theorem isName_of_noSlash {stamp : String} (h : '/' ∉ stamp.toList) :
    Path.IsName ("openrpc-invalid-" ++ stamp ++ ".json") := by
  have hlist : ("openrpc-invalid-" ++ stamp ++ ".json").toList =
      "openrpc-invalid-".toList ++ stamp.toList ++ ".json".toList := by simp
  have hlength : 16 ≤ ("openrpc-invalid-" ++ stamp ++ ".json").toList.length := by
    rw [hlist]
    simp
  have hne : ∀ short : String, short.toList.length < 16 →
      "openrpc-invalid-" ++ stamp ++ ".json" ≠ short := by
    rintro short hshort rfl
    omega
  refine ⟨hne "" (by simp), hne "." (by simp), hne ".." (by simp), ?_⟩
  rw [hlist]
  simp [h]

variable {disk disk' : Disk} {dir stamp path text : String}

/-- An error leaves the files as they are, but for the document that it is about. -/
theorem dump_cases (h : FreshStamp disk dir stamp) (e : Error) :
    dump disk dir stamp e = disk ∨ ∃ vs document, e = .invalidSpec vs document ∧
      Dumps disk dir stamp document (dump disk dir stamp e) := by
  unfold dump
  split
  · next vs document =>
    split
    · next disk' hw =>
      have hadds := Disk.addsFile_of_write (isName_of_noSlash h.noSlash) h.unused hw
      exact .inr ⟨vs, document, rfl, hadds⟩
    · exact .inl rfl
  · exact .inl rfl

/-- The checksum of a file stands beside it under another name, so the file stays as it is. -/
theorem of_writeFor {checksum : String} {place : List String}
    (hl : disk.locate path = .ok (.file (.text text), place))
    (h : Checksum.writeFor checksum path disk = .ok disk') :
    disk'.read path = .ok text ∧ ∃ name, Path.fileName? path = some name ∧
      disk'.read (path ++ ".sha256") = .ok (checksum ++ "  " ++ name ++ "\n") := by
  obtain ⟨hpath, parts, last, entries, above, hparts, hf, hlast, rfl, -⟩ := Disk.of_locate_file hl
  have hname : Path.fileName? path = some last := Disk.fileName?_of_partsOf hparts hlast
  have hbeside : disk.partsOf (path ++ ".sha256") = parts ++ [last ++ ".sha256"] :=
    Disk.partsOf_append hpath (by simp) hparts
  have hline : Checksum.sumLine checksum path = checksum ++ "  " ++ last ++ "\n" := by
    rw [Checksum.sumLine, hname, Option.getD_some]
  rw [Checksum.writeFor, Checksum.sidecar, hline] at h
  obtain ⟨parts', last', entries', above', hparts', hf', -, hputs, hl'⟩ := Disk.puts_of_write h
  obtain ⟨rfl, hsame⟩ := List.append_inj' (hbeside.symm.trans hparts') rfl
  obtain rfl := List.singleton_inj.mp hsame
  -- both paths go through one directory, so the places differ if the last names do
  obtain ⟨-, rfl⟩ := Prod.mk.inj (Except.ok.inj (hf.symm.trans hf'))
  have hne : above ++ [last] ≠ above ++ [last ++ ".sha256"] := by
    intro he
    have hlength := congrArg String.length (List.singleton_inj.mp (List.append_cancel_left he))
    simp at hlength
  exact ⟨Disk.read_of_locate (hputs.locate_kept hl hne), last, hname, Disk.read_of_locate hl'⟩

/-- The text of a document stands at a path and, where it is asked for, its checksum in the file
beside it, with the name of the file that it is the checksum of. -/
structure HoldsOutput (disk : Disk) (path text : String) (withChecksum : Bool) : Prop where
  output : disk.read path = .ok text
  checksum : withChecksum = true → ∃ name, Path.fileName? path = some name ∧
    disk.read (path ++ ".sha256") =
      .ok (Sha256.hex (Sha256.digest text.toUTF8.toList) ++ "  " ++ name ++ "\n")

theorem holdsOutput_of_writeOutput {withChecksum : Bool} {made : Emitted}
    (h : writeOutput disk path text withChecksum = (disk', .ok made)) :
    HoldsOutput disk' path text withChecksum := by
  unfold writeOutput at h
  cases hw : disk.write path text with
  | error => simp [hw] at h
  | ok written =>
    obtain ⟨_, _, _, _, _, _, _, _, hl⟩ := Disk.puts_of_write hw
    have hverify : Checksum.verify (Checksum.ofText text) text = true := by
      simp [Checksum.verify]
    simp only [hw, Disk.read_of_locate hl, hverify, Bool.not_true, Bool.false_eq_true,
      if_false] at h
    cases withChecksum with
    | false =>
      obtain ⟨rfl, -⟩ := Prod.mk.inj h
      exact ⟨Disk.read_of_locate hl, by simp⟩
    | true =>
      simp only [if_true] at h
      cases hs : Checksum.writeFor (Checksum.ofText text) path written with
      | error => simp [hs] at h
      | ok beside =>
        rw [hs] at h
        obtain ⟨rfl, -⟩ := Prod.mk.inj h
        obtain ⟨hread, hsum⟩ := of_writeFor hl hs
        exact ⟨hread, fun _ => hsum⟩

namespace Assembly

/-- A document is confirmed exactly if its text is given, and otherwise fails as that does. -/
theorem confirm_eq (a : Assembly) (inlined : Bool) (layout : Layout) :
    a.confirm inlined = (a.text inlined layout).map fun _ => () := by
  have hcheck : ∀ document, check document =
      ((check document).bind fun _ => .ok (layout.render document)).map fun _ => () := by
    intro document
    cases check document <;> rfl
  cases inlined with
  | false => exact hcheck a.sorted.document
  | true =>
    show a.sorted.validateExpanded = (a.serializeExpanded layout).map fun _ => ()
    unfold validateExpanded serializeExpanded
    cases a.sorted.expand with
    | error => rfl
    | ok document => exact hcheck document

end Assembly

/-- What is made of a configuration goes through the text of the document, whether it is written or
not. -/
theorem emit_eq (disk : Disk) (dir stamp : String) (c : Config) :
    emit disk dir stamp c =
      match loadFragments disk c with
      | .error fault => (disk, .error fault)
      | .ok loaded =>
        match loaded.assembly.text c.generate.inlined c.generate.layout with
        | .error e => (dump disk dir stamp e, .error (.document e))
        | .ok text =>
          match c.generate.output with
          | none => (disk, .ok (.valid loaded.methods loaded.schemas))
          | some path => writeOutput disk path text c.generate.writeChecksum := by
  unfold emit
  cases loadFragments disk c with
  | error => rfl
  | ok loaded =>
    have hconfirm := loaded.assembly.confirm_eq c.generate.inlined c.generate.layout
    cases ho : c.generate.output <;>
      cases ht : loaded.assembly.text c.generate.inlined c.generate.layout <;>
      simp only [ho, ht, hconfirm, Except.map]

end OpenRpc

end RpcContract
