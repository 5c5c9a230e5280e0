import Mathlib.Data.String.Basic
import RustyGasket.Paging

/-!
# Listing a bucket

`S3ObjectStore::list` against a bucket that others write to between its requests. The
service is the SDK's and a parameter; `Serves` says of it what S3 documents.
-/

namespace RustyGasket

/-- What the listing reads of a `ListObjectsV2Output`; an object need not come with a key. -/
structure ListObjectsV2Output where
  contents : List (Option String)
  isTruncated : Option Bool
  nextContinuationToken : Option String

/-- The `aws_sdk_s3::Client`: a request's answer, by how many were sent before it. -/
structure S3Client where
  listObjectsV2 : (sent : Nat) → (bucket keyPrefix : String) → (continuationToken : Option String) →
    Except String ListObjectsV2Output

structure S3ObjectStore where
  client : S3Client
  bucket : String

/-- The continuation token of each request that was sent, in order, and what came of them. -/
structure Listing where
  requests : List (Option String)
  answer : Except String (List String)

def Listing.after (continuation : Option String) (listing : Listing) : Listing :=
  ⟨continuation :: listing.requests, listing.answer⟩

namespace ListObjectsV2Output

def keys (output : ListObjectsV2Output) : List String := output.contents.filterMap id

/-- The output as a page, where a token stands for the position it goes on from. -/
def page (position : String → String) (output : ListObjectsV2Output) : Page String where
  keys := output.keys
  next := if output.isTruncated.getD false then output.nextContinuationToken.map position else none

end ListObjectsV2Output

namespace S3ObjectStore

def listFailed (store : S3ObjectStore) (keyPrefix error : String) : String :=
  "S3 list_objects_v2 " ++ store.bucket ++ "/" ++ keyPrefix ++ " failed: " ++ error

/-- The `loop`, with `none` where it has not ended yet. -/
def listFrom (store : S3ObjectStore) (keyPrefix : String) :
    (fuel sent : Nat) → (keys : List String) → (continuation : Option String) →
    Option Listing
  | 0, _, _, _ => none
  | fuel + 1, sent, keys, continuation =>
    match store.client.listObjectsV2 sent store.bucket keyPrefix continuation with
    | .error error => some ⟨[continuation], .error (store.listFailed keyPrefix error)⟩
    | .ok output =>
      let keys := keys ++ output.keys
      if output.isTruncated.getD false then
        match output.nextContinuationToken with
        | none => some ⟨[continuation], .ok keys⟩
        | some token =>
          (listFrom store keyPrefix fuel (sent + 1) keys (some token)).map (.after continuation)
      else some ⟨[continuation], .ok keys⟩

def list (store : S3ObjectStore) (keyPrefix : String) (fuel : Nat) : Option Listing :=
  store.listFrom keyPrefix fuel 0 [] none

/-- What is listed of a bucket. -/
def Under (keyPrefix : String) (bucket : String → Prop) (key : String) : Prop :=
  bucket key ∧ keyPrefix.toList <+: key.toList

/-- The service as documented: an output is a page, in order, of the bucket as it is then;
a truncated one has a key and a token to go on from. -/
structure Serves (store : S3ObjectStore) (keyPrefix : String) (bucket : Nat → String → Prop)
    (position : String → String) : Prop where
  answers : ∀ sent token output,
    store.client.listObjectsV2 sent store.bucket keyPrefix token = .ok output →
    Page.Answers (Under keyPrefix (bucket sent)) (token.map position) (output.page position)
  announced : ∀ sent token output,
    store.client.listObjectsV2 sent store.bucket keyPrefix token = .ok output →
    output.isTruncated = some true →
    output.keys ≠ [] ∧ ∃ next, output.nextContinuationToken = some next

variable {store : S3ObjectStore} {keyPrefix : String} {bucket : Nat → String → Prop}
  {position : String → String} {names : List String}

theorem listFrom_mono {fuel more : Nat} (enough : fuel ≤ more) {sent : Nat} {keys : List String}
    {continuation : Option String} {listing : Listing}
    (ended : store.listFrom keyPrefix fuel sent keys continuation = some listing) :
    store.listFrom keyPrefix more sent keys continuation = some listing := by
  induction fuel generalizing more sent keys continuation listing with
  | zero => cases ended
  | succ fuel ih =>
    obtain ⟨more, rfl⟩ : ∃ n, more = n + 1 := ⟨more - 1, by omega⟩
    rw [listFrom] at ended ⊢
    cases sends : store.client.listObjectsV2 sent store.bucket keyPrefix continuation with
    | error => simpa only [sends] using ended
    | ok output =>
      simp only [sends] at ended ⊢
      split at ended
      next truncated =>
        rw [if_pos truncated]
        cases token : output.nextContinuationToken with
        | none => simpa only [token] using ended
        | some next =>
          simp only [token] at ended ⊢
          obtain ⟨later, rest, rfl⟩ := Option.map_eq_some_iff.mp ended
          rw [ih (Nat.le_of_succ_le_succ enough) rest]
          rfl
      next whole => rwa [if_neg whole]

/-- The last of the requests failed, and its error is the answer. -/
def Failed (store : S3ObjectStore) (keyPrefix : String) (sent : Nat) (listing : Listing) : Prop :=
  ∃ answered token error, listing.requests = answered ++ [token] ∧
    store.client.listObjectsV2 (sent + answered.length) store.bucket keyPrefix token =
      .error error ∧
    listing.answer = .error (store.listFailed keyPrefix error)

theorem Failed.after {sent : Nat} {listing : Listing} {continuation : Option String}
    (failed : Failed store keyPrefix (sent + 1) listing) :
    Failed store keyPrefix sent (listing.after continuation) := by
  obtain ⟨answered, token, error, requests, sends, answer⟩ := failed
  refine ⟨continuation :: answered, token, error, congrArg (continuation :: ·) requests, ?_, answer⟩
  rwa [List.length_cons, Nat.add_comm answered.length, ← Nat.add_assoc]

/-- A listing from a cursor, of as many pages as there may be names after it. -/
theorem listFrom_pages (serves : Serves store keyPrefix bucket position)
    (named : ∀ sent key, bucket sent key → key ∈ names) {fuel : Nat} (sent : Nat)
    (keys : List String) (continuation : Option String)
    (enough : (Page.toCome names (continuation.map position)).length < fuel) :
    ∃ listing, store.listFrom keyPrefix fuel sent keys continuation = some listing ∧
      (Failed store keyPrefix sent listing ∨
        ∃ pages,
          Page.Pages (fun sent => Under keyPrefix (bucket sent)) sent (continuation.map position)
            pages ∧
          listing.requests.length = pages.length ∧
          listing.answer = .ok (keys ++ Page.keysOf pages)) := by
  induction fuel generalizing sent keys continuation with
  | zero => omega
  | succ fuel ih =>
    rw [listFrom]
    cases sends : store.client.listObjectsV2 sent store.bucket keyPrefix continuation with
    | error error => exact ⟨_, rfl, .inl ⟨[], continuation, error, rfl, sends, rfl⟩⟩
    | ok output =>
      have answers := serves.answers sent continuation output sends
      dsimp only
      cases truncated : output.isTruncated.getD false with
      | false =>
        rw [if_neg Bool.false_ne_true]
        have whole : (output.page position).next = none := by
          simp [ListObjectsV2Output.page, truncated]
        exact ⟨_, rfl,
          .inr ⟨_, .last answers whole, rfl, by simp [Page.keysOf, ListObjectsV2Output.page]⟩⟩
      | true =>
        rw [if_pos rfl]
        have flagged : output.isTruncated = some true := by
          cases flag : output.isTruncated <;> simp_all
        obtain ⟨some_key, next, token⟩ := serves.announced sent continuation output sends flagged
        have goesOn : (output.page position).next = some (position next) := by
          simp [ListObjectsV2Output.page, truncated, token]
        have closer := answers.closer (fun key there => named sent key there.1) goesOn some_key
        simp only [token]
        obtain ⟨listing, ended, outcome⟩ :=
          ih (sent + 1) (keys ++ output.keys) (some next) (by rw [Option.map_some]; omega)
        refine ⟨listing.after continuation, by rw [ended]; rfl, ?_⟩
        obtain failed | ⟨pages, later, requests, listed⟩ := outcome
        · exact .inl failed.after
        · refine .inr ⟨_, .more answers goesOn later, congrArg (· + 1) requests, listed.trans ?_⟩
          simp [Page.keysOf, ListObjectsV2Output.page]

/-- **A listing of a changing bucket ends and misses nothing that stays.** With finitely many
names ever in use, it ends in the error of the last request it sent, or it lists keys of the
prefix in order and each once, each in the bucket at one of the requests it sent, and all
that were there at every one of these. -/
theorem list_complete (serves : Serves store keyPrefix bucket position)
    (named : ∀ sent key, bucket sent key → key ∈ names) :
    ∃ listing, (∀ fuel, names.length < fuel → store.list keyPrefix fuel = some listing) ∧
      (Failed store keyPrefix 0 listing ∨
        ∃ keys, listing.answer = .ok keys ∧ keys.Pairwise (· < ·) ∧
          (∀ key ∈ keys,
            keyPrefix.toList <+: key.toList ∧ ∃ i < listing.requests.length, bucket i key) ∧
          ∀ key, keyPrefix.toList <+: key.toList →
            (∀ i < listing.requests.length, bucket i key) → key ∈ keys) := by
  have room : (Page.toCome names (Option.map position none)).length < names.length + 1 :=
    Nat.lt_succ_of_le Page.toCome_length_le
  obtain ⟨listing, ended, outcome⟩ := listFrom_pages serves named 0 [] none room
  refine ⟨listing, fun fuel enough => listFrom_mono enough ended, outcome.imp_right ?_⟩
  rintro ⟨pages, listed, requests, answer⟩
  rw [requests]
  refine ⟨_, answer, listed.sorted, fun key own => ?_, fun key under stays => ?_⟩
  · obtain ⟨i, bound, there, under⟩ := listed.there key own
    exact ⟨under, i, bound, Nat.zero_add i ▸ there⟩
  · exact listed.complete nofun fun i bound => ⟨(Nat.zero_add i).symm ▸ stays i bound, under⟩

/-- A service that answers a key at a time, its own token. -/
def keyByKey (bucket : Nat → List String) : S3Client where
  listObjectsV2 sent _ keyPrefix token :=
    match (bucket sent).filter fun key =>
        keyPrefix.toList.isPrefixOf key.toList && token.all (· < key) with
    | [] => .ok ⟨[], some false, none⟩
    | [key] => .ok ⟨[some key], some false, none⟩
    | key :: _ => .ok ⟨[some key], some true, some key⟩

theorem keyByKey_serves {bucket : Nat → List String}
    (sorted : ∀ sent, (bucket sent).Pairwise (· < ·)) (name keyPrefix : String) :
    Serves ⟨keyByKey bucket, name⟩ keyPrefix (fun sent key => key ∈ bucket sent) id := by
  have asked : ∀ sent token key,
      key ∈ ((bucket sent).filter fun key =>
        keyPrefix.toList.isPrefixOf key.toList && token.all (· < key)) ↔
      Under keyPrefix (· ∈ bucket sent) key ∧ Page.After token key := by
    intro sent token key
    cases token <;> simp [Under, Page.After, and_assoc]
  constructor
  · intro sent token output sends
    have order := (sorted sent).filter fun key =>
      keyPrefix.toList.isPrefixOf key.toList && token.all (· < key)
    have found := asked sent token
    simp only [keyByKey] at sends
    rw [Option.map_id]
    split at sends
    next none_left =>
      cases sends
      rw [none_left] at found
      exact .ofLast .nil found
    next only last =>
      cases sends
      rw [last] at found
      exact .ofLast (List.pairwise_singleton _ _) found
    next key rest not_last more =>
      cases sends
      rw [more] at found order
      have own := (found key).mp List.mem_cons_self
      refine ⟨List.pairwise_singleton _ _, ?_, ?_, ?_, ?_, fun other there after out => ?_⟩
      · rintro _ (_ | ⟨_, ⟨⟩⟩)
        exact own.1
      · rintro _ (_ | ⟨_, ⟨⟩⟩)
        exact own.2
      · rintro _ (_ | ⟨_, ⟨⟩⟩) _ ⟨⟩
        exact le_refl _
      · rintro _ ⟨⟩
        exact own.2
      · obtain _ | ⟨_, later⟩ := (found other).mpr ⟨there, after⟩
        · exact absurd List.mem_cons_self out
        · exact ⟨key, rfl, List.rel_of_pairwise_cons order later⟩
  · intro sent token output sends truncated
    simp only [keyByKey] at sends
    split at sends <;> cases sends
    · cases truncated
    · cases truncated
    · exact ⟨List.cons_ne_nil _ _, _, rfl⟩

/-- A bucket in which `b` is deleted and `d` written after the first request. -/
def rewritten : Nat → List String
  | 0 => ["a", "b", "c"]
  | _ + 1 => ["a", "c", "d"]

/-- Three requests, and of what they list `d` came and `b` went on the way. -/
theorem rewritten_listed :
    ∃ listing, S3ObjectStore.list ⟨keyByKey rewritten, "releases"⟩ "" 5 = some listing ∧
      listing.requests.length = 3 ∧
      ∃ keys, listing.answer = .ok keys ∧ "a" ∈ keys ∧ "c" ∈ keys := by
  have sorted : ∀ sent, (rewritten sent).Pairwise (· < ·) := by
    rintro (_ | _)
    · exact (by decide : ["a", "b", "c"].Pairwise (· < ·))
    · exact (by decide : ["a", "c", "d"].Pairwise (· < ·))
  have named : ∀ sent, ∀ key ∈ rewritten sent, key ∈ ["a", "b", "c", "d"] := by
    rintro (_ | _) key held <;> simp only [rewritten, List.mem_cons] at held ⊢ <;> tauto
  have stays : ∀ key ∈ ["a", "c"], ∀ sent, key ∈ rewritten sent := by
    rintro key held (_ | _) <;> simp only [rewritten, List.mem_cons] at held ⊢ <;> tauto
  obtain ⟨listing, ends, outcome⟩ := list_complete (keyByKey_serves sorted "releases" "") named
  have three : listing.requests.length = 3 := by
    have ended := ends 5 (by decide)
    have sent : S3ObjectStore.list ⟨keyByKey rewritten, "releases"⟩ "" 5 =
      some ⟨[none, some "a", some "c"], .ok ["a", "c", "d"]⟩ := rfl
    rw [← Option.some.inj (sent.symm.trans ended)]
    rfl
  obtain ⟨answered, token, error, -, sends, -⟩ | ⟨keys, answer, -, -, complete⟩ := outcome
  · simp only [keyByKey] at sends
    split at sends <;> cases sends
  · exact ⟨listing, ends 5 (by decide), three, keys, answer,
      complete "a" List.nil_prefix fun i _ => stays "a" (by decide) i,
      complete "c" List.nil_prefix fun i _ => stays "c" (by decide) i⟩

end S3ObjectStore

end RustyGasket
