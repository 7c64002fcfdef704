import CodeChunks.Assembly
import CodeChunks.Extraction.Traversal
import CodeChunks.Proofs.Syntax.Layout

namespace CodeChunks.Extraction

open Syntax

/-- A chunk holds the bytes of its span and spans the lines of its first to its last byte, which are
lines of the text and as many as its content has. -/
theorem rawChunk_lines (l : Language) (withDetails : Bool) (source : String) (site : Site)
    (hpoints : site.node.Pointed source) (hstart : Text.IsBoundary source site.node.start)
    (hstop : Text.IsBoundary source site.node.stop) (h : site.node.start < site.node.stop) :
    let c := rawChunk l withDetails source site
    Text.bytes c.content = ((Text.bytes source).take site.node.stop).drop site.node.start ∧
      c.lineStart = Text.row source site.node.start + 1 ∧
      c.lineEnd = Text.row source (site.node.stop - 1) + 1 ∧
      1 ≤ c.lineStart ∧ c.lineStart ≤ c.lineEnd ∧ c.lineEnd ≤ Text.lineCount source ∧
      c.lineEnd - c.lineStart + 1 = Text.lineCount c.content ∧
      ∀ language filePath imports seq,
        (Assembly.record language filePath imports c seq).lineCount = Text.lineCount c.content := by
  intro c
  have hcontent : c.content = Text.slice source site.node.start site.node.stop := rfl
  have hlines := Node.lineSpan_eq hpoints h hstop.le_length
  have hfirst : c.lineStart = Text.row source site.node.start + 1 := congrArg Prod.fst hlines
  have hlast : c.lineEnd = Text.row source (site.node.stop - 1) + 1 := congrArg Prod.snd hlines
  have hmono := Text.row_mono source (show site.node.start ≤ site.node.stop - 1 by omega)
  have hinside : Text.row source (site.node.stop - 1) < Text.lineCount source :=
    Text.row_lt_lineCount (Nat.lt_of_lt_of_le (by omega) hstop.le_length)
  have hcount : c.lineEnd - c.lineStart + 1 = Text.lineCount c.content := by
    have hslice := Text.row_add_lineCount_slice hstart hstop h
    rw [← hcontent] at hslice
    omega
  refine ⟨hcontent ▸ Text.bytes_slice hstart hstop, hfirst, hlast, by omega, by omega, by omega,
    hcount, fun _ _ _ _ => hcount⟩

namespace Trailing

def source : String := "π = 3\n\nlet é = 1\n\n"

def site : Site :=
  ⟨.clean source true "lexical_declaration" [] 8 20 [], []⟩

end Trailing

open Trailing in
theorem rawChunk_lines_trailing :
    site.node.Pointed source ∧ Text.IsBoundary source 8 ∧ Text.IsBoundary source 20 ∧ 8 < 20 ∧
      (rawChunk .javascript true source site).lineStart = 3 ∧
      (rawChunk .javascript true source site).lineEnd = 4 ∧
      Text.lineCount (rawChunk .javascript true source site).content = 2 := by
  have hpoints : site.node.Pointed source := Node.pointed_clean
  have hstart : Text.IsBoundary source 8 := by decide +kernel
  have hstop : Text.IsBoundary source 20 := by decide +kernel
  obtain ⟨-, hfirst, hlast, -, -, -, hcount, -⟩ :=
    rawChunk_lines .javascript true source site hpoints hstart hstop (by decide)
  have hfirst : (rawChunk .javascript true source site).lineStart = 3 := hfirst
  have hlast : (rawChunk .javascript true source site).lineEnd = 4 := hlast
  rw [hfirst, hlast] at hcount
  exact ⟨hpoints, hstart, hstop, by decide, hfirst, hlast, hcount.symm⟩

end CodeChunks.Extraction
