import Mathlib
import Campaign.Proofs.Entries
import Campaign.Proofs.Ingest
import Campaign.Proofs.Utf8

/-!
# The logs of a directory

Which files of a directory are logs hangs on their names alone, and the order in which they are taken on
nothing else either: neither on the order in which the system lists the directory nor on the one in which
the files were made (`matchingLogs_spec`).
-/

namespace Campaign

namespace Ingest
open Files
variable {pattern : String} {entries entries' : List (FileName × Entry)}

theorem pairwise_sorted (h : (entries.map Prod.fst).Nodup) :
    (entries.mergeSort fun a b => a.1 ≤ b.1).Pairwise fun a b => a.1 < b.1 := by
  have hle := List.pairwise_mergeSort le_trans_name le_total_name entries
  have hne : (entries.mergeSort fun a b => a.1 ≤ b.1).Pairwise fun a b => a.1 ≠ b.1 :=
    List.pairwise_map.1 (((List.mergeSort_perm _ _).map Prod.fst).nodup_iff.2 h)
  refine (hle.and hne).imp fun {a b} ⟨hab, hne⟩ => ?_
  by_contra hlt
  exact hne (List.le_antisymm (of_decide_eq_true hab) (List.not_lt.1 hlt))

theorem matchingLogs_of_perm (h : (entries.map Prod.fst).Nodup) (hp : entries'.Perm entries) :
    matchingLogs pattern entries' = matchingLogs pattern entries := by
  have h' : (entries'.map Prod.fst).Nodup := (hp.map Prod.fst).nodup_iff.2 h
  have hperm := ((List.mergeSort_perm entries' fun a b => a.1 ≤ b.1).trans hp).trans
    (List.mergeSort_perm entries fun a b => a.1 ≤ b.1).symm
  have hsorted := hperm.eq_of_pairwise (fun a b _ _ hab hba => absurd hba (List.lt_asymm hab))
    (pairwise_sorted h') (pairwise_sorted h)
  rw [matchingLogs, matchingLogs, hsorted]

theorem pairwise_matchingLogs (h : (entries.map Prod.fst).Nodup) :
    ((matchingLogs pattern entries).map fun f => Text.toUtf8 f.name).Pairwise (· < ·) := by
  refine List.pairwise_map.2 ((pairwise_sorted h).filterMap _ fun a b hab f hf f' hf' => ?_)
  obtain ⟨hname, -⟩ := LogFile.ofEntry?_eq_some.1 hf
  obtain ⟨hname', -⟩ := LogFile.ofEntry?_eq_some.1 hf'
  rwa [hname, hname'] at hab

/-- The logs of a directory that can be listed are its files, whether they can be read or not, whose names are
text, start with the pattern and end like the name of a log, each once and in strictly ascending byte order of
the names. The listing may come in any order, and so may the files have been made. -/
theorem matchingLogs_spec (pattern : String) (fs : Files) (hfs : fs.Distinct) (workingDirectory : Location)
    (path : Path) (listing : List (FileName × Entry)) (hl : fs.list workingDirectory path = .ok listing) :
    let logs := matchingLogs pattern listing
    (∀ f, f ∈ logs ↔ ∃ place e, fs.locate workingDirectory path = .ok place ∧
      fs.entry? (place ++ [Text.toUtf8 f.name]) = some e ∧ e.contents? = some f.contents ∧
      pattern.toList <+: f.name.toList ∧ ".log".toList <:+ f.name.toList) ∧
    (logs.map fun f => Text.toUtf8 f.name).Pairwise (· < ·) ∧
    (∀ entries, entries.Perm listing → matchingLogs pattern entries = logs) ∧
    ∀ fs' : Files, fs'.Distinct → (∀ p, fs'.entry? p = fs.entry? p) →
      ∃ listing', fs'.list workingDirectory path = .ok listing' ∧ matchingLogs pattern listing' = logs := by
  intro logs
  obtain ⟨place, hlocate, -, hlisting⟩ := list_eq_ok.1 hl
  have hnames : (listing.map Prod.fst).Nodup := nodup_list hfs hl
  refine ⟨fun f => ?_, pairwise_matchingLogs hnames, fun entries hp => matchingLogs_of_perm hnames hp,
    fun fs' hfs' he => ?_⟩
  · rw [mem_matchingLogs, hlisting]
    simp only [mem_children_iff hfs]
    constructor
    · rintro ⟨e, hf⟩
      exact ⟨place, e, hlocate, hf⟩
    · rintro ⟨place', e, hlocate', hf⟩
      obtain rfl := Except.ok.inj (hlocate.symm.trans hlocate')
      exact ⟨e, hf⟩
  · obtain ⟨listing', hl', hp⟩ := exists_list_perm hfs hfs' he hl
    exact ⟨listing', hl', matchingLogs_of_perm hnames hp⟩

/-- A directory with two logs, one of which cannot be read, a file of another ending, a directory named like a
log and a name that is no text: whatever the order of its listing, the logs come in the order of their names. -/
theorem matchingLogs_two :
    let made : List (FileName × Entry) := [(Text.toUtf8 "1_b.log", .unreadable .permissionDenied),
      (Text.toUtf8 "1_a.txt", .file (.bytes [])), (Text.toUtf8 "1_sub.log", .directory),
      (Text.toUtf8 "1_a.log", .file (.bytes [])), ([0x31, 0x5F, 0xFF] ++ Text.toUtf8 ".log", .file (.bytes []))]
    let logs : List LogFile := [⟨"1_a.log", .ok []⟩, ⟨"1_b.log", .error .permissionDenied⟩]
    let fs : Files := made.foldl (fun fs entry => fs.put [[108], entry.1] entry.2) ⟨[([[108]], .directory)]⟩
    ∃ listing, fs.list [] (.ofText "l") = .ok listing ∧
      ∀ entries, entries.Perm listing → matchingLogs "1_" entries = logs := by
  intro made logs fs
  have hfs : fs.Distinct := by unfold Distinct; decide +kernel
  have hl : fs.list [] (.ofText "l") = .ok made := by decide +kernel
  obtain ⟨-, -, horder, -⟩ := matchingLogs_spec "1_" fs hfs [] (.ofText "l") made hl
  let sorted : List (FileName × Entry) := [(Text.toUtf8 "1_a.log", .file (.bytes [])),
    (Text.toUtf8 "1_a.txt", .file (.bytes [])), (Text.toUtf8 "1_b.log", .unreadable .permissionDenied),
    (Text.toUtf8 "1_sub.log", .directory), ([0x31, 0x5F, 0xFF] ++ Text.toUtf8 ".log", .file (.bytes []))]
  have hp : sorted.Perm made := by decide +kernel
  have hlogs : matchingLogs "1_" sorted = logs := by
    rw [matchingLogs, List.mergeSort_of_pairwise (by decide +kernel)]
    decide +kernel
  exact ⟨made, hl, fun entries he => (horder entries he).trans ((horder sorted hp).symm.trans hlogs)⟩

end Ingest
end Campaign
