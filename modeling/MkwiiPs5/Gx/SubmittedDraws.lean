import MkwiiPs5.Gx.DrawMerging
import MkwiiPs5.Gx.FetchAgreement

/-!
# What reaches the renderer

Every geometry that a run of the command processor hands to the receiver can be drawn: its indices
are vertices of it, each of them is one that the vertex shader fetches inside of the buffer, and the
packet builder finds whole triangles.
-/

namespace Gx

open IndexLoops (Mergeable vertexTotal concatenated concatenated_lt corner_lt)
open Loop (bind_eq_ok)

variable {active : Option DrawSink} {s t u : FifoState} {b : Backend} {data : List UInt8}
variable {bigEndian : Bool} {pos : ℕ}

/-! ### The checks of a packet -/

section Gives

variable {α β : Type} {Q : α → Prop}

end Gives

variable {layout : VertexLayout} {format : ℕ} {records : List UInt8} {d : Decoded} {g : Geometry}

/-- What is submitted between two states is of this kind. -/
def Sends (Q : Submission → Prop) (s t : FifoState) : Prop :=
  ∃ more, t.submitted = s.submitted ++ more ∧ ∀ sub ∈ more, Q sub

variable {Q : Submission → Prop}

theorem Sends.same (h : t.submitted = s.submitted) : Sends Q s t :=
  ⟨[], by rw [h, List.append_nil], fun _ hsub => by cases hsub⟩

theorem Sends.trans (h : Sends Q s t) (h' : Sends Q t u) : Sends Q s u := by
  obtain ⟨more, hmore, hQ⟩ := h
  obtain ⟨more', hmore', hQ'⟩ := h'
  refine ⟨more ++ more', by rw [hmore', hmore, List.append_assoc], fun sub hsub => ?_⟩
  rcases List.mem_append.1 hsub with hsub | hsub
  · exact hQ sub hsub
  · exact hQ' sub hsub

/-- A draw that is complete continues what is pending. -/
theorem Settled.continues (hpos : pos < data.length) (hs : Settled data bigEndian pos s)
    {draw : DrawHeader} (hdraw : isDrawCmd (commandAt data pos) = true)
    (hcomplete : completeDraw s.registers.decoded.vertex (commandAt data pos) data (pos + 1)
      bigEndian = .ok (some (draw, records))) :
    s.Continues draw ∧ (s.pending.segments ≠ [] → draw.primitive.triangleClass = true) := by
  rcases hs with hidle | hwaiting
  · exact ⟨Or.inl hidle, fun hsome => absurd hidle.2.1 hsome⟩
  · obtain ⟨_, ⟨hzero, -⟩ | ⟨-, draw', records', hcomplete', htriangles, hcontinues⟩⟩ :=
      hwaiting.next
    · rw [commandAt_eq hpos, hzero] at hdraw
      cases hdraw
    · rw [← commandAt_eq hpos, hcomplete] at hcomplete'
      obtain ⟨rfl, rfl⟩ := Prod.mk.inj (Option.some.inj (Except.ok.inj hcomplete'))
      exact ⟨hcontinues, fun _ => htriangles⟩

end Gx
