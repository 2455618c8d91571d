import Forum.Http.Server
import Forum.Launch
import Forum.Main
import Forum.Proofs.Transaction
import Forum.Proofs.Collaborators
import Forum.Proofs.Submission
import Forum.Crowd
import Forum.Proofs.Races
import Forum.Proofs.Pool
import Forum.Proofs.Identities
import Forum.Proofs.Custody
import Forum.Proofs.Effects
import Forum.Proofs.Errands
import Forum.Proofs.History
import Forum.Proofs.Sweeps
import Forum.Proofs.Chronology
import Forum.Proofs.Protection
import Forum.Proofs.Lifetimes
import Forum.Proofs.Requests
import Forum.Proofs.Admission
import Forum.Proofs.Traces
import Forum.Proofs.Tokens
import Forum.Proofs.Renames
import Forum.Proofs.Threads
import Forum.Proofs.Replies
import Forum.Proofs.Reception
import Forum.Proofs.Integrity
import Forum.Proofs.Listings
import Forum.Proofs.Lockstep
import Forum.Proofs.Secrecy
import Forum.Proofs.Rejections
import Forum.Proofs.Cookies
import Forum.Proofs.Returning
import Forum.Proofs.Horizon
import Forum.Proofs.Succession
import Forum.Proofs.Vacancies
import Forum.Proofs.Atomicity
import Forum.Proofs.Updates
import Forum.Proofs.Transcripts
import Forum.Proofs.Offers
import Forum.Proofs.Issuance
import Forum.Proofs.Timetable
import Forum.Proofs.Uploads
import Forum.Proofs.Precedence
import Forum.Proofs.Rounding
import Forum.Proofs.Wrapping
