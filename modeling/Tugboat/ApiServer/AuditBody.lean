import Mathlib.Data.List.Induction

/-!
# Bodies in the audit log

The audit log keeps the first bytes of a request's and of a response's body, up to a limit, with a
flag that says whether there were more.  They are taken from the chunks of the body as these go by.
The bytes do not depend on how the body is cut.  The flag does: every chunk that comes when the
limit is reached sets it, also an empty one (`Late`).  In a response, a limit of zero counts
nothing.
-/

namespace Tugboat.AuditBody

/-- What is kept of a body; a request's and a response's capture have these fields in common. -/
structure CapturedBody where
  bytes : List UInt8 := []
  limit : ℕ
  truncated : Bool := false

namespace CapturedBody

def append (body : CapturedBody) (chunk : List UInt8) : CapturedBody :=
  if body.bytes.length ≥ body.limit then { body with truncated := true }
  else
    let take := min (body.limit - body.bytes.length) chunk.length
    { body with
      bytes := body.bytes ++ chunk.take take
      truncated := if take < chunk.length then true else body.truncated }

/-- A chunk of a response.  The other answers of the inner stream leave the capture as it is. -/
def pollNext (body : CapturedBody) (chunk : List UInt8) : CapturedBody :=
  if body.limit > 0 ∧ body.bytes.length < body.limit then
    let take := min (body.limit - body.bytes.length) chunk.length
    { body with
      bytes := body.bytes ++ chunk.take take
      truncated := if take < chunk.length then true else body.truncated }
  else if body.limit > 0 then { body with truncated := true }
  else body

/-- The capture should be the first bytes, with a mark if there are more. -/
def Exact (body : CapturedBody) (chunks : List (List UInt8)) : Prop :=
  body.bytes = chunks.flatten.take body.limit ∧
    (body.truncated = true ↔ body.limit < chunks.flatten.length)

/-- The last chunk comes when the limit is reached, and has nothing in it. -/
def Late (limit : ℕ) (chunks : List (List UInt8)) : Prop :=
  chunks ≠ [] ∧ limit ≤ chunks.dropLast.flatten.length ∧ chunks.flatten.length ≤ limit

variable {limit : ℕ}

lemma append_eq {body : CapturedBody} {all : List UInt8}
    (hbytes : body.bytes = all.take body.limit) (chunk : List UInt8) :
    (body.append chunk).bytes = (all ++ chunk).take body.limit ∧
      (body.append chunk).limit = body.limit ∧
      ((body.append chunk).truncated = true ↔ body.truncated = true ∨
        body.limit ≤ all.length ∨ body.limit < all.length + chunk.length) := by
  have hlength : body.bytes.length = min body.limit all.length := by rw [hbytes, List.length_take]
  unfold append
  split
  next hfull =>
    have hle : body.limit ≤ all.length := by omega
    simp [hbytes, hle, List.take_append_of_le_length hle]
  next hfree =>
    have hmin : min body.limit all.length = all.length := by omega
    dsimp only
    refine ⟨?_, rfl, by grind⟩
    rw [hlength, hmin, hbytes, List.take_append, ← List.take_eq_take_min]

/-- A request's capture.  The flag is set by the last chunk if by any. -/
lemma foldl_append_eq (chunks : List (List UInt8)) :
    let body := chunks.foldl append { limit }
    body.bytes = chunks.flatten.take limit ∧ body.limit = limit ∧
      (body.truncated = true ↔ chunks ≠ [] ∧
        (limit ≤ chunks.dropLast.flatten.length ∨ limit < chunks.flatten.length)) := by
  induction chunks using List.reverseRecOn with
  | nil => simp
  | append_singleton chunks chunk ih =>
    dsimp only at ih ⊢
    obtain ⟨hbytes, hlimit, htruncated⟩ := ih
    have hlast : chunks.dropLast.flatten.length ≤ chunks.flatten.length := by
      rcases List.eq_nil_or_concat chunks with rfl | ⟨chunks, last, rfl⟩ <;> simp
    have hne : chunks ++ [chunk] ≠ [] := by simp
    have hnext := append_eq (hbytes.trans (by rw [hlimit])) chunk
    rw [hlimit, htruncated] at hnext
    rw [List.foldl_append, List.foldl_cons, List.foldl_nil, List.dropLast_concat,
      List.flatten_append, List.flatten_singleton, List.length_append, and_iff_right hne]
    exact ⟨hnext.1, hnext.2.1, hnext.2.2.trans (by omega)⟩

/-- With a limit, a response is captured as a request is. -/
lemma foldl_pollNext_eq (chunks : List (List UInt8)) (body : CapturedBody) :
    chunks.foldl pollNext body = if body.limit = 0 then body else chunks.foldl append body := by
  induction chunks generalizing body with
  | nil => simp
  | cons chunk chunks ih =>
    rw [List.foldl_cons, ih, pollNext]
    grind [append]

/-- **What is captured does not depend on the chunks**, but for the flag when the last chunk is a
late one, and for that of a response with the limit zero. -/
theorem captured_exact_iff (limit : ℕ) (chunks : List (List UInt8)) :
    ((chunks.foldl append { limit }).Exact chunks ↔ ¬Late limit chunks) ∧
      ((chunks.foldl pollNext { limit }).Exact chunks ↔
        if limit = 0 then chunks.flatten.length = 0 else ¬Late limit chunks) := by
  obtain ⟨hbytes, hlimit, htruncated⟩ := @foldl_append_eq limit chunks
  have hrequest : (chunks.foldl append { limit }).Exact chunks ↔ ¬Late limit chunks := by
    rw [Exact, hlimit, htruncated, and_iff_right hbytes, Late]
    cases chunks with
    | nil => simp
    | cons chunk chunks => grind
  refine ⟨hrequest, ?_⟩
  rw [foldl_pollNext_eq]
  split
  next hzero => simp [Exact, show limit = 0 from hzero]
  next => exact hrequest

/-- The body is as long as the limit, and an empty chunk follows: the flag is set. -/
theorem captured_late_chunk : (([[1], []]).foldl append { limit := 1 }).truncated = true ∧
    (([[1], []]).foldl pollNext { limit := 1 }).truncated = true := by decide

end CapturedBody

end Tugboat.AuditBody
