import Barycenter.Conf.HttpServers

/-!
# Rendered configurations

What a rendering returns, and the routes and pools it reads of a model.
-/

namespace Barycenter

namespace Conf

open Config

inductive PlaneName where
  | http
  | stream
  deriving DecidableEq, Repr

structure RenderedConfig where
  conf : String
  digest : String
  planes : List PlaneName
  deriving DecidableEq, Repr

def routesOf (model : Model) (listenerKey : String) : List HttpRoute :=
  model.httpRoutes.filter fun route => route.listener = listenerKey

def proxyPool : HttpAction → Option String
  | .proxy pool _ _ _ => some pool
  | .redirect _ _ | .reject _ => none

end Conf

end Barycenter
