import TripPlanner.Service.CarPark
import TripPlanner.Service.Rental
import TripPlanner.Service.Roadworks

/-!
# Services

What real-time feeds have attached to the network. A service is there once something was
registered with it, and until it is dropped.
-/

namespace TripPlanner

/-- The services attached to a network. -/
structure Services (R : Type) where
  /-- Closed streets. -/
  roadworks : Option Roadworks
  /-- Car parks. -/
  carParks : Option (Registry (CarPark R))
  /-- Rental stations and networks. -/
  rental : Option (RentalService R)

namespace Services

variable {R : Type}

/-- No services. -/
def empty : Services R := ⟨none, none, none⟩

/-- Changes the car park service, which is created if it is not there. -/
def modifyCarParks (services : Services R) (f : Registry (CarPark R) → Registry (CarPark R)) :
    Services R :=
  { services with carParks := some (f (services.carParks.getD .empty)) }

/-- Changes the rental service, which is created if it is not there. -/
def modifyRental (services : Services R) (f : RentalService R → RentalService R) : Services R :=
  { services with rental := some (f (services.rental.getD .empty)) }

/-- Declares rental types of networks, one after another. -/
def declareNetworks (services : Services R) (types : List (String × RentalType)) : Services R :=
  services.modifyRental fun service =>
    types.foldl (fun service declared => service.setNetworkType declared.1 declared.2) service

end Services

end TripPlanner
