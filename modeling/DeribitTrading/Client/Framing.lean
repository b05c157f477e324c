import DeribitTrading.Client.ResponseSafety

/-!
The header stripping of the four operations on what libcurl really hands over:
any number of header blocks, then the body. Stripping removes exactly the first
block, so the order operations are right for one block only, and the guard of
`getOrderBookData` adds the case of none.
-/
namespace DeribitTrading
open ByteString HttpFraming

theorem extractBody_block (b : HeaderBlock) (rest : Bytes) :
    extractBody (b.render ++ rest) = .ok rest := by
  have room := b.render_length
  simp only [extractBody, bodyPosition, b.find_render, Nat.sub_add_cancel room, substr_append]

theorem orderBookBody_block (b : HeaderBlock) (rest : Bytes) :
    orderBookBody (b.render ++ rest) = .ok rest := by
  have room := b.render_length
  simp only [orderBookBody, b.find_render, Nat.sub_add_cancel room, substr_append]

theorem orderBookBody_unseparated {body : Bytes} (unseparated : ¬ separator <:+: body) :
    orderBookBody body = .ok body := by
  simp only [orderBookBody, (find_eq_none_iff separator body).mpr unseparated]

/-- Without a separator the wrapped position cuts off three bytes, or is past the end. -/
theorem extractBody_unseparated {body : Bytes} (unseparated : ¬ separator <:+: body) :
    extractBody body ≠ .ok body := by
  intro extracted
  obtain ⟨enough, cut⟩ := (extractBody_eq_ok_iff body body).mp extracted
  have room := (bodyPosition_le_iff body).mpr enough
  have position : bodyPosition body = 3 := by
    simp only [bodyPosition, (find_eq_none_iff separator body).mpr unseparated]
    rfl
  have shorter := congrArg List.length cut
  rw [List.length_drop] at shorter
  omega

theorem renderBlocks_append_ne {blocks : List HeaderBlock} (some_block : blocks ≠ [])
    (body : Bytes) : renderBlocks blocks ++ body ≠ body := by
  obtain ⟨b, rest, rfl⟩ := List.exists_cons_of_ne_nil some_block
  intro same
  have lengths := congrArg List.length same
  have room := b.render_length
  simp only [renderBlocks_cons, List.length_append] at lengths
  omega

theorem extractBody_eq_body_iff (blocks : List HeaderBlock) {body : Bytes}
    (unseparated : ¬ separator <:+: body) :
    extractBody (renderBlocks blocks ++ body) = .ok body ↔ blocks.length = 1 := by
  cases blocks with
  | nil => simpa using extractBody_unseparated unseparated
  | cons b rest =>
      rw [renderBlocks_cons, List.append_assoc, extractBody_block, Except.ok.injEq]
      cases rest with
      | nil => simp
      | cons c rest => simpa using renderBlocks_append_ne (List.cons_ne_nil c rest) body

theorem orderBookBody_eq_body_iff (blocks : List HeaderBlock) {body : Bytes}
    (unseparated : ¬ separator <:+: body) :
    orderBookBody (renderBlocks blocks ++ body) = .ok body ↔ blocks.length ≤ 1 := by
  cases blocks with
  | nil => simpa using orderBookBody_unseparated unseparated
  | cons b rest =>
      rw [renderBlocks_cons, List.append_assoc, orderBookBody_block, Except.ok.injEq]
      cases rest with
      | nil => simp
      | cons c rest => simpa using renderBlocks_append_ne (List.cons_ne_nil c rest) body

theorem orderBookBody_eq_extractBody_iff (blocks : List HeaderBlock) {body : Bytes}
    (unseparated : ¬ separator <:+: body) :
    orderBookBody (renderBlocks blocks ++ body) = extractBody (renderBlocks blocks ++ body) ↔
      blocks ≠ [] := by
  cases blocks with
  | nil =>
      simpa [orderBookBody_unseparated unseparated, eq_comm] using
        extractBody_unseparated unseparated
  | cons b rest =>
      simp [List.append_assoc, extractBody_block, orderBookBody_block]

/-- All four operations find the body exactly behind a single header block;
they agree with each other as soon as there is a block at all. -/
theorem body_extraction (blocks : List HeaderBlock) (body : Bytes)
    (unseparated : ¬ separator <:+: body) :
    ((placeOrderBody (renderBlocks blocks ++ body) = .ok body ∧
        cancelOrderBody (renderBlocks blocks ++ body) = .ok body ∧
        modifyOrderBody (renderBlocks blocks ++ body) = .ok body ∧
        orderBookBody (renderBlocks blocks ++ body) = .ok body) ↔ blocks.length = 1) ∧
      (orderBookBody (renderBlocks blocks ++ body) = .ok body ↔ blocks.length ≤ 1) ∧
      (orderBookBody (renderBlocks blocks ++ body) =
          placeOrderBody (renderBlocks blocks ++ body) ↔ blocks ≠ []) := by
  refine ⟨?_, orderBookBody_eq_body_iff blocks unseparated,
    orderBookBody_eq_extractBody_iff blocks unseparated⟩
  rw [orderBookBody_eq_body_iff blocks unseparated]
  simp only [placeOrderBody, cancelOrderBody, modifyOrderBody,
    extractBody_eq_body_iff blocks unseparated]
  omega

def statusBlock (status : Bytes) (nonempty : status ≠ []) (unbroken : lf ∉ status) :
    HeaderBlock where
  statusLine := ⟨status, nonempty, unbroken⟩
  headerLines := []

/-- A final response, and the redirect that libcurl followed to get there. -/
def finalBlock : HeaderBlock := statusBlock (bytes "HTTP/2 200") (by decide) (by decide)
def redirectBlock : HeaderBlock := statusBlock (bytes "HTTP/2 302") (by decide) (by decide)

def emptyObjectText : Bytes := bytes "\x7b\x7d"

theorem emptyObjectText_unseparated : ¬ separator <:+: emptyObjectText := by decide

theorem single_block_extracted :
    placeOrderBody (renderBlocks [finalBlock] ++ emptyObjectText) = .ok emptyObjectText :=
  ((body_extraction [finalBlock] emptyObjectText emptyObjectText_unseparated).1.mpr rfl).1

/-- Behind a redirect the headers of the final response are taken for the body;
without headers the order book is read and an order response is out of range. -/
theorem other_blocks_not_extracted :
    placeOrderBody (renderBlocks [redirectBlock, finalBlock] ++ emptyObjectText) =
        .ok (finalBlock.render ++ emptyObjectText) ∧
      orderBookBody (renderBlocks [redirectBlock, finalBlock] ++ emptyObjectText) =
        .ok (finalBlock.render ++ emptyObjectText) ∧
      placeOrderBody (renderBlocks [] ++ emptyObjectText) = .error .outOfRange ∧
      orderBookBody (renderBlocks [] ++ emptyObjectText) = .ok emptyObjectText :=
  ⟨rfl, rfl, rfl, rfl⟩

end DeribitTrading
