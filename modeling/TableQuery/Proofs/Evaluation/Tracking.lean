import Mathlib.Data.Set.Function
import TableQuery.Evaluation.Tracker
import TableQuery.Proofs.Wire.Documents
import TableQuery.Sample

/-!
# Results of the latest query

Any number of holders share a tracker and submit queries and finished runs to it
in any order.  Only a run of what was submitted last counts: the tracker
remembers the fingerprint of that, and its digest tells the content as far as no
two stored forms collide.
-/

namespace TableQuery

/-! ## What is submitted -/

/-- A stage whose stored form tells it, as it can be held in memory. -/
structure Stage.Submittable (s : Stage) : Prop where
  fits : s.Fits
  proper : s.Proper Json.PlainNumber
  known : ∀ e ∈ s.expressions, e.Known
  optionsApart : ∀ a ∈ s.aggregations, a.OptionsApart

structure Draft.Submittable (d : Draft) : Prop where
  valid : ∃ c : Catalog, d.query.validate c = .ok ()
  stages : ∀ s ∈ d.query.stages, s.Submittable

theorem Stage.Submittable.told {source : Except CatalogError (List Entry)}
    {s : Stage} (h : s.Submittable) (hvalid : s.Valid source)
    (hsource : ∀ entries, source = .ok entries → Stage.SourceEntries entries) :
    s.Told where
  known := h.known
  options := h.fits.options
  optionsApart := fun a ha => (h.optionsApart a ha).1
  breakouts := h.fits.breakouts
  targets := fun _ ho => hvalid.findable hsource h.fits ho
  names_nodup := hvalid.names_nodup
  extraApart := ⟨h.fits.extra, h.fits.extra_unknown⟩

theorem Query.Valid.exists_source {c : Catalog} {q : Query} (h : q.Valid c)
    {s : Stage} (hs : s ∈ q.stages) :
    ∃ source, s.Valid source ∧ ∀ entries, source = .ok entries →
      Stage.SourceEntries entries := by
  induction q with
  | ofTable table stage =>
      obtain rfl := List.mem_singleton.mp hs
      exact ⟨_, h, fun _ => Catalog.sourceEntries_tableEntries⟩
  | ofQuery source stage ih =>
      obtain hinner | hlast := List.mem_append.mp hs
      · exact ih h.1 hinner
      · obtain rfl := List.mem_singleton.mp hlast
        exact ⟨_, h.2, fun _ => Query.sourceEntries_sourceColumns⟩

namespace Draft

def encodings (drafts : List Draft) : Set String :=
  {text | ∃ d ∈ drafts, ∃ j, Wire.queryToJson d.query = .ok j ∧
    j.compact = text}

theorem Submittable.told {d : Draft} (h : d.Submittable) :
    ∀ s ∈ d.query.stages, s.Told := by
  intro s hs
  obtain ⟨c, hvalid⟩ := h.valid
  obtain ⟨source, hvalid, hsource⟩ :=
    (Query.validate_eq_ok_iff.mp hvalid).exists_source hs
  exact (h.stages s hs).told hvalid hsource

theorem fingerprint_eq_ok_iff {d : Draft} {f : Fingerprint} :
    d.fingerprint = .ok f ↔
      ∃ j, Wire.queryToJson d.query = .ok j ∧ f = ⟨d.revision, j.digest⟩ := by
  rw [fingerprint, bind_eq_ok_iff]
  simp only [pure_eq_ok_iff, @eq_comm _ f]

/-- Drafts of one fingerprint have the same content, unless their texts
collide. -/
theorem same_of_fingerprint_eq {drafts : List Draft} {d d' : Draft}
    {f : Fingerprint} (hcollisions : Set.InjOn Sha256.ofText (encodings drafts))
    (hd : d ∈ drafts) (hd' : d' ∈ drafts) (h : d.Submittable)
    (h' : d'.Submittable) (hf : d.fingerprint = .ok f)
    (hf' : d'.fingerprint = .ok f) :
    d.revision = d'.revision ∧ d.query.same d'.query = true := by
  obtain ⟨j, hj, rfl⟩ := fingerprint_eq_ok_iff.mp hf
  obtain ⟨j', hj', heq⟩ := fingerprint_eq_ok_iff.mp hf'
  obtain ⟨hrevision, hdigest⟩ := Fingerprint.mk.inj heq
  have hcompact : j.compact = j'.compact :=
    hcollisions ⟨d, hd, j, hj, rfl⟩ ⟨d', hd', j', hj', rfl⟩ hdigest
  have hsame :=
    Wire.same_of_compact_eq h.told h'.told (fun s hs => (h.stages s hs).proper)
      (fun s hs => (h'.stages s hs).proper) hj hj' hcompact
  exact ⟨hrevision, hsame⟩

end Draft

namespace RunRequest

theorem ofDraft_eq_ok_iff {d : Draft} {request : RunRequest} :
    ofDraft d = .ok request ↔
      request.draft = d ∧ d.fingerprint = .ok request.fingerprint := by
  obtain ⟨f, d'⟩ := request
  rw [ofDraft, bind_eq_ok_iff]
  simp only [pure_eq_ok_iff, mk.injEq]
  constructor
  · rintro ⟨_, hf, rfl, rfl⟩
    exact ⟨rfl, hf⟩
  · rintro ⟨rfl, hf⟩
    exact ⟨f, hf, rfl, rfl⟩

end RunRequest

theorem Draft.Submittable.exists_ofDraft {d : Draft} (h : d.Submittable) :
    ∃ request, RunRequest.ofDraft d = .ok request := by
  obtain ⟨j, hj⟩ :=
    Wire.exists_queryToJson_of_findable (fun s hs => (h.told s hs).extraApart)
      fun s hs => (h.told s hs).targets
  have hfingerprint : d.fingerprint = .ok ⟨d.revision, j.digest⟩ :=
    Draft.fingerprint_eq_ok_iff.mpr ⟨j, hj, rfl⟩
  exact ⟨⟨_, d⟩, RunRequest.ofDraft_eq_ok_iff.mpr ⟨rfl, hfingerprint⟩⟩

/-! ## Calls -/

inductive Tracker.Call (Holder α : Type) where
  | submit (holder : Holder) (d : Draft)
  | accept (holder : Holder) (request : RunRequest) (value : α)

inductive Tracker.Reply (α : Type) where
  | submitted (request : Except WireError RunRequest)
  | judged (outcome : Outcome α)

namespace Tracker

variable {Holder α : Type}

/-- The holders share the tracker, and a call reads or writes it once, so that
calls take effect one after the other. -/
def call (t : Tracker) : Call Holder α → Tracker × Reply α
  | .submit _ d =>
    match t.submit d with
    | .ok (t, request) => (t, .submitted (.ok request))
    | .error e => (t, .submitted (.error e))
  | .accept _ request value => (t, .judged (t.accept request value))

def after (t : Tracker) (calls : List (Call Holder α)) : Tracker :=
  calls.foldl (fun t c => (t.call c).1) t

def reply (calls : List (Call Holder α)) (c : Call Holder α) : Reply α :=
  ((({} : Tracker).after calls).call c).2

def Call.submitted? : Call Holder α → Option Draft
  | .submit _ d => some d
  | .accept _ _ _ => none

def submitted (calls : List (Call Holder α)) : List Draft :=
  calls.filterMap Call.submitted?

def Remembers (t : Tracker) (drafts : List Draft) : Prop :=
  t.latest.map Except.ok = drafts.getLast?.map Draft.fingerprint

variable {t : Tracker} {drafts : List Draft}

theorem Remembers.call {c : Call Holder α} (h : t.Remembers drafts)
    (hsubmitted : ∀ d ∈ c.submitted?, d.Submittable) :
    (t.call c).1.Remembers (drafts ++ c.submitted?.toList) := by
  cases c with
  | submit holder d =>
      obtain ⟨request, hrequest⟩ := (hsubmitted d rfl).exists_ofDraft
      have hsubmit : t.submit d =
          .ok (⟨some request.fingerprint, t.submissions + 1⟩, request) := by
        rw [submit, hrequest]
        rfl
      rw [Remembers, Call.submitted?, Option.toList_some, List.getLast?_concat,
        Tracker.call, hsubmit, Option.map_some, Option.map_some,
        (RunRequest.ofDraft_eq_ok_iff.mp hrequest).2]
  | accept holder request value =>
      rw [Call.submitted?, Option.toList_none, List.append_nil]
      exact h

theorem Remembers.after {calls : List (Call Holder α)} (h : t.Remembers drafts)
    (hsubmitted : ∀ d ∈ submitted calls, d.Submittable) :
    (t.after calls).Remembers (drafts ++ submitted calls) := by
  induction calls generalizing t drafts with
  | nil =>
      rw [submitted, List.filterMap_nil, List.append_nil]
      exact h
  | cons c calls ih =>
      have hcons : submitted (c :: calls) =
          c.submitted?.toList ++ submitted calls := by
        cases hc : c.submitted? <;> simp [submitted, hc]
      rw [hcons, List.forall_mem_append] at hsubmitted
      have hfirst : ∀ d ∈ c.submitted?, d.Submittable := fun d hd =>
        hsubmitted.1 d (Option.mem_toList.mpr hd)
      rw [hcons, ← List.append_assoc]
      exact ih (h.call hfirst) hsubmitted.2

/-- However the calls of the holders follow each other, a finished run counts
only if its query has the revision and the content of what was submitted last;
and the run of what was submitted last does count. -/
theorem accept_current_only_latest (calls : List (Call Holder α))
    (holder : Holder) (request : RunRequest) (value : α)
    (hrequest : RunRequest.ofDraft request.draft = .ok request)
    (hdrafts : ∀ d ∈ request.draft :: submitted calls, d.Submittable)
    (hcollisions : Set.InjOn Sha256.ofText
      (Draft.encodings (request.draft :: submitted calls))) :
    (∀ value',
        reply calls (.accept holder request value) =
          .judged (.current value') →
        value' = value ∧ ∃ last, (submitted calls).getLast? = some last ∧
          last.revision = request.draft.revision ∧
          last.query.same request.draft.query = true) ∧
      ((submitted calls).getLast? = some request.draft →
        reply calls (.accept holder request value) =
          .judged (.current value)) := by
  obtain ⟨hown, hsubmitted⟩ := List.forall_mem_cons.mp hdrafts
  have hfingerprint := (RunRequest.ofDraft_eq_ok_iff.mp hrequest).2
  have hnew : ({} : Tracker).Remembers [] := rfl
  have hremembers := hnew.after hsubmitted
  rw [List.nil_append, Remembers] at hremembers
  have hreply : reply calls (.accept holder request value) =
      .judged (({} : Tracker).after calls |>.accept request value) := rfl
  rw [hreply, accept]
  split
  case isTrue hlatest =>
      refine ⟨fun value' hcurrent => ?_, fun _ => rfl⟩
      cases hcurrent
      rw [hlatest, Option.map_some] at hremembers
      obtain ⟨last, hlast, heq⟩ := Option.map_eq_some_iff.mp hremembers.symm
      have hmem := List.mem_of_getLast? hlast
      obtain ⟨hrevision, hsame⟩ := Draft.same_of_fingerprint_eq hcollisions
        (List.mem_cons_of_mem _ hmem) List.mem_cons_self
        (hsubmitted last hmem) hown heq
        hfingerprint
      exact ⟨rfl, last, hlast, hrevision, hsame⟩
  case isFalse hlatest =>
      refine ⟨fun value' hcurrent => ?_, fun hlast => absurd ?_ hlatest⟩
      · cases hcurrent
      · rw [hlast, Option.map_some, hfingerprint] at hremembers
        obtain ⟨f, hf, heq⟩ := Option.map_eq_some_iff.mp hremembers
        rw [hf, Except.ok.inj heq]

def products : Draft := ⟨.table Sample.products, 0⟩

def productCount : Draft :=
  ⟨.ofTable Sample.products
    { aggregations := [⟨.call .count [], some "Products", []⟩] }, 1⟩

def twoSubmissions : List (Call Bool Nat) :=
  [.submit false products, .submit true productCount]

theorem accept_current_only_latest_twoSubmissions :
    ∃ request, request.draft = productCount ∧
      RunRequest.ofDraft request.draft = .ok request ∧
      (∀ d ∈ request.draft :: submitted twoSubmissions, d.Submittable) ∧
      Set.InjOn Sha256.ofText
        (Draft.encodings (request.draft :: submitted twoSubmissions)) ∧
      (∀ value',
        reply twoSubmissions (.accept true request 4) =
          .judged (.current value') →
        value' = 4 ∧ ∃ last, (submitted twoSubmissions).getLast? = some last ∧
          last.revision = request.draft.revision ∧
          last.query.same request.draft.query = true) ∧
      ((submitted twoSubmissions).getLast? = some request.draft →
        reply twoSubmissions (.accept true request 4) =
          .judged (.current 4)) := by
  have hproducts : products.Submittable := by
    refine ⟨⟨Sample.catalog, rfl⟩, List.forall_mem_singleton.mpr ?_⟩
    constructor
    · constructor <;> simp [Stage.expressions, Json.DistinctKeys,
        Json.MembersDistinct, Json.Members.keys]
    · exact ⟨by simp, .object List.nodup_nil (by simp)⟩
    · simp [Stage.expressions]
    · simp
  have hcount : productCount.Submittable := by
    refine ⟨⟨Sample.catalog, rfl⟩, List.forall_mem_singleton.mpr ?_⟩
    constructor
    · constructor <;> simp [Stage.expressions, Expression.identifiers,
        Expression.argIdentifiers, Json.DistinctKeys, Json.MembersDistinct,
        Json.Members.keys]
    · exact ⟨by simp [Json.proper_object_iff, Json.Members.keys],
        .object List.nodup_nil (by simp)⟩
    · simp [Stage.expressions, Expression.Known.call]
    · simp [Aggregation.OptionsApart, Json.Members.keys]
  obtain ⟨request, hrequest⟩ := hcount.exists_ofDraft
  obtain ⟨hdraft, -⟩ := RunRequest.ofDraft_eq_ok_iff.mp hrequest
  rw [← hdraft] at hrequest
  have hdrafts : ∀ d ∈ request.draft :: submitted twoSubmissions,
      d.Submittable := by
    simp [hdraft, submitted, twoSubmissions, Call.submitted?, hproducts, hcount]
  have hcollisions :
      Set.InjOn Sha256.ofText
        (Draft.encodings (request.draft :: submitted twoSubmissions)) := by
    have hwriteProducts : Wire.queryToJson products.query =
        .ok (.object [("source-table", .ofNat 2)]) := rfl
    have hwriteCount : Wire.queryToJson productCount.query =
        .ok (.object [("source-table", .ofNat 2),
          ("aggregation", .array [Wire.taggedArray
          "aggregation-options" [Wire.taggedArray "count" [],
            .object [("display-name", .string "Products")]]])]) := rfl
    have hdigests : ∀ j j', Wire.queryToJson products.query = .ok j →
        Wire.queryToJson productCount.query = .ok j' →
        j.digest ≠ j'.digest := by
      intro j j' hj hj'
      cases hj.symm.trans hwriteProducts
      cases hj'.symm.trans hwriteCount
      decide +kernel
    rintro text ⟨d, hd, j, hj, rfl⟩ text' ⟨d', hd', j', hj', rfl⟩ heq
    have hcases : ∀ d ∈ request.draft :: submitted twoSubmissions,
        d = products ∨ d = productCount := by
      simp [hdraft, submitted, twoSubmissions, Call.submitted?]
    rcases hcases d hd with rfl | rfl <;> rcases hcases d' hd' with rfl | rfl
    · cases hj.symm.trans hj'
      rfl
    · exact absurd heq (hdigests j j' hj hj')
    · exact absurd heq.symm (hdigests j' j hj' hj)
    · cases hj.symm.trans hj'
      rfl
  exact ⟨request, hdraft, hrequest, hdrafts, hcollisions,
    accept_current_only_latest twoSubmissions true request 4 hrequest
      hdrafts hcollisions⟩

end Tracker

end TableQuery
