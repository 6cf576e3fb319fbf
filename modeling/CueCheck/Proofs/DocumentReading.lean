import CueCheck.Document
import CueCheck.Proofs.BlockReading

/-!
Reading a document: each of its entries is read from a block of the content.
-/

namespace CueCheck.Document

theorem mem_subtitles {d : Document} {e : Entry} :
    e ∈ d.subtitles ↔ e ∈ d.entries ∧ e.malformed = false := by
  simp [subtitles]

theorem parse_eq_of_readBlocks {content : Text} {entries : List Entry}
    (h : readBlocks 1 (Block.split content) = .ok entries) (filename : Option Text) :
    parse content filename = .ok ⟨entries, filename⟩ := by
  rw [parse, h]
  rfl

/-- Each entry of a document is read from a block of the content. -/
theorem exists_read_of_readBlocks {blocks : List Text} {position : Nat} {entries : List Entry}
    (h : readBlocks position blocks = .ok entries) {e : Entry} (he : e ∈ entries) :
    ∃ block ∈ blocks, ∃ n : Nat, (position ≤ n ∧ n < position + blocks.length) ∧
      Block.read block n = .ok e := by
  induction blocks generalizing position entries with
  | nil =>
    injection h with h
    rw [← h] at he
    cases he
  | cons block blocks ih =>
    rw [readBlocks] at h
    obtain ⟨first, hfirst, h⟩ := exists_of_bind_eq_ok h
    obtain ⟨rest, hrest, h⟩ := exists_of_bind_eq_ok h
    injection h with h
    rw [← h] at he
    rcases List.mem_cons.1 he with rfl | he
    · exact ⟨block, List.mem_cons_self, position, by simp, hfirst⟩
    · obtain ⟨b, hmem, n, hn, hread⟩ := ih hrest he
      refine ⟨b, List.mem_cons_of_mem _ hmem, n, ?_, hread⟩
      rw [List.length_cons]
      omega

theorem readBlocks_of_parse {content : Text} {filename : Option Text} {d : Document}
    (h : parse content filename = .ok d) :
    readBlocks 1 (Block.split content) = .ok d.entries ∧ d.filename = filename := by
  rw [parse] at h
  obtain ⟨entries, hentries, h⟩ := exists_of_bind_eq_ok h
  injection h with h
  rw [← h]
  exact ⟨hentries, rfl⟩

theorem isRead_of_parse {content : Text} {filename : Option Text} {d : Document}
    (h : parse content filename = .ok d) {e : Entry} (he : e ∈ d.subtitles) :
    Block.IsRead (content.without '\r') e := by
  rw [subtitles, List.mem_filter] at he
  obtain ⟨block, hblock, n, hn, hread⟩ := exists_read_of_readBlocks (readBlocks_of_parse h).1 he.1
  have hr := Block.isRead_of_read (by omega) hread (by simpa using he.2)
  exact { hr with text_sublist := hr.text_sublist.trans (Block.sublist_of_mem_split hblock) }

end CueCheck.Document
