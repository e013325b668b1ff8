import TripPlanner.Geodesy.Sphere
import TripPlanner.Json
import TripPlanner.Proofs.Soundness
import TripPlanner.Proofs.Starvation
import TripPlanner.Quantity.Double
import TripPlanner.Request.Writing
import TripPlanner.Router
import TripPlanner.Proofs.Labels
import TripPlanner.Proofs.Domination
import TripPlanner.Proofs.Optimality
import TripPlanner.Proofs.Alternatives
import TripPlanner.Proofs.Planes
import TripPlanner.Proofs.Lineage
import TripPlanner.Proofs.Estimate
import TripPlanner.Proofs.Guidance
import TripPlanner.Proofs.Misguidance
import TripPlanner.Proofs.Slack
import TripPlanner.Proofs.Overtaking
import TripPlanner.Proofs.Feeds
import TripPlanner.Proofs.Ownership
import TripPlanner.Proofs.Regulation
import TripPlanner.Proofs.Restoration
import TripPlanner.Proofs.Passage
import TripPlanner.Proofs.Rivals
import TripPlanner.Proofs.Intersections
import TripPlanner.Proofs.Serialization
import TripPlanner.Proofs.Founders
import TripPlanner.Proofs.Legs
import TripPlanner.Proofs.Driving
import TripPlanner.Proofs.Comparing
import TripPlanner.Proofs.Parking
import TripPlanner.Proofs.Transit
import TripPlanner.Proofs.Rental
import TripPlanner.Proofs.Racks
import TripPlanner.Proofs.BestFirst
import TripPlanner.Proofs.Limits
import TripPlanner.Proofs.Accumulation
import TripPlanner.Proofs.Removal
import TripPlanner.Proofs.Failures
import TripPlanner.Proofs.Repetition
import TripPlanner.Proofs.Seclusion
import TripPlanner.Proofs.Bearings
import TripPlanner.Proofs.Shares
import TripPlanner.Proofs.Distances
import TripPlanner.Proofs.References
import TripPlanner.Proofs.Extremes
