import TopologyAssist.Grammar.Basic

/-!
The built-in grammar: spiking networks as groups, neurons, connections and learning functions.

A neuron holds four function blocks: how its weights decay, with which probability it releases a
spike, how its weights are bounded and where it stands. Each field reads name, label, description,
default, unit and listed values.
-/

namespace TopologyAssist

namespace Standard

/-- The version of the tables. -/
def version : String := "1.0"

/-- Groups of neurons. -/
def groups : SectionSpec where
  code := .groups
  name := "groups"
  description :=
    "Neuron groups. A group is simulated either by this process (local) or by a peer reached " ++
    "over the network (remote)."
  kinds := [
    { id := ⟨.ofSection .groups, "lcl"⟩
      name := "local group"
      description := "Group simulated in-process."
      discriminator := some ⟨"typ", "lcl"⟩
      fields := [
        ⟨"gid", "group id",
         "Identifier of the local group. Neurons join it through `grp`.",
         none, none, []⟩,
        ⟨"typ", "group type",
         "Group type: local. The group's neurons run inside this simulator.",
         some "lcl", none, ["lcl"]⟩,
        ⟨"thd", "worker threads",
         "Number of worker threads stepping the group's neurons.",
         some "1", none, []⟩]
      slots := [] },
    { id := ⟨.ofSection .groups, "rmt"⟩
      name := "remote group"
      description := "Group simulated by a remote peer."
      discriminator := some ⟨"typ", "rmt"⟩
      fields := [
        ⟨"gid", "group id",
         "Identifier of the remote group. It must match the id the peer announces.",
         none, none, []⟩,
        ⟨"typ", "group type",
         "Group type: remote. Spikes are exchanged with a peer simulator.",
         some "rmt", none, ["rmt"]⟩,
        ⟨"hst", "host",
         "Host name or address of the peer.",
         some "localhost", none, []⟩,
        ⟨"prt", "port",
         "TCP port the peer listens on.",
         some "9090", none, []⟩]
      slots := [] }]

/-- Neurons. -/
def neurons : SectionSpec where
  code := .neurons
  name := "neurons"
  description :=
    "Spiking neurons. Each neuron embeds its weight decay, release probability, weight limit " ++
    "and location functions."
  kinds := [
    { id := ⟨.ofSection .neurons, "neuron"⟩
      name := "neuron"
      description := "Leaky integrate-and-fire neuron."
      discriminator := none
      fields := [
        ⟨"nid", "neuron id",
         "Unique identifier of the neuron.",
         none, none, []⟩,
        ⟨"grp", "group id",
         "Group the neuron belongs to; refers to a `gid` in the GRP section.",
         none, none, []⟩,
        ⟨"inh", "inhibitory",
         "Whether the neuron's outgoing spikes inhibit their targets.",
         some "false", none, ["true", "false"]⟩,
        ⟨"thr", "spike threshold",
         "Membrane potential at which the neuron fires.",
         some "1.0", some "mV", []⟩,
        ⟨"rst", "resting potential",
         "Membrane potential the neuron returns to after a spike.",
         some "0.0", some "mV", []⟩,
        ⟨"rfp", "refractory period",
         "Time after a spike during which the neuron ignores input.",
         some "2", some "ms", []⟩]
      slots := [.weightDecay, .releaseProbability, .weightLimit, .location] }]

/-- Connections between neurons. -/
def connections : SectionSpec where
  code := .connections
  name := "connections"
  description :=
    "Synaptic connections between neurons."
  kinds := [
    { id := ⟨.ofSection .connections, "connection"⟩
      name := "connection"
      description := "Directed synapse from a presynaptic to a postsynaptic neuron."
      discriminator := none
      fields := [
        ⟨"pre", "presynaptic neuron",
         "Id of the neuron sending spikes.",
         none, none, []⟩,
        ⟨"pst", "postsynaptic neuron",
         "Id of the neuron receiving spikes.",
         none, none, []⟩,
        ⟨"wgt", "initial weight",
         "Synaptic weight at simulation start.",
         some "0.5", none, []⟩,
        ⟨"dly", "delay",
         "Transmission delay between the spike and its arrival.",
         some "1", some "ms", []⟩,
        ⟨"lid", "learning function id",
         "Learning function applied to the weight; refers to a `lid` in the LRN section.",
         none, none, []⟩]
      slots := [] }]

/-- Learning functions. -/
def learning : SectionSpec where
  code := .learning
  name := "learning functions"
  description :=
    "Plasticity rules that connections refer to by id."
  kinds := [
    { id := ⟨.ofSection .learning, "stdph"⟩
      name := "hebbian stdp"
      description := "Spike-timing dependent plasticity: pre-before-post strengthens."
      discriminator := some ⟨"fnc", "stdph"⟩
      fields := [
        ⟨"lid", "learning function id",
         "Identifier of the learning function.",
         none, none, []⟩,
        ⟨"fnc", "learning function",
         "Hebbian STDP. Causal spike pairs potentiate, acausal pairs depress.",
         some "stdph", none, ["stdph"]⟩,
        ⟨"inh", "inhibition amplitude",
         "Maximum depression applied to an acausal spike pair.",
         some "0.5", none, []⟩,
        ⟨"exc", "excitation amplitude",
         "Maximum potentiation applied to a causal spike pair.",
         some "1.0", none, []⟩,
        ⟨"ind", "inhibition decay",
         "Time constant of the depression window.",
         some "20", some "ms", []⟩,
        ⟨"exd", "excitation decay",
         "Time constant of the potentiation window.",
         some "20", some "ms", []⟩]
      slots := [] },
    { id := ⟨.ofSection .learning, "stdpa"⟩
      name := "anti-hebbian stdp"
      description := "Spike-timing dependent plasticity with inverted polarity."
      discriminator := some ⟨"fnc", "stdpa"⟩
      fields := [
        ⟨"lid", "learning function id",
         "Identifier of the learning function.",
         none, none, []⟩,
        ⟨"fnc", "learning function",
         "Anti-hebbian STDP. Causal spike pairs depress, acausal pairs potentiate.",
         some "stdpa", none, ["stdpa"]⟩,
        ⟨"inh", "inhibition amplitude",
         "Maximum depression applied to a causal spike pair.",
         some "0.5", none, []⟩,
        ⟨"exc", "excitation amplitude",
         "Maximum potentiation applied to an acausal spike pair.",
         some "1.0", none, []⟩,
        ⟨"ind", "inhibition decay",
         "Time constant of the depression window (causal side).",
         some "20", some "ms", []⟩,
        ⟨"exd", "excitation decay",
         "Time constant of the potentiation window (acausal side).",
         some "20", some "ms", []⟩]
      slots := [] },
    { id := ⟨.ofSection .learning, "flat"⟩
      name := "flat window"
      description := "Constant weight change for spike pairs inside a fixed window."
      discriminator := some ⟨"fnc", "flat"⟩
      fields := [
        ⟨"lid", "learning function id",
         "Identifier of the learning function.",
         none, none, []⟩,
        ⟨"fnc", "learning function",
         "Flat window. Every pair inside the window changes the weight by a fixed amount.",
         some "flat", none, ["flat"]⟩,
        ⟨"inh", "inhibition amplitude",
         "Weight decrease for acausal pairs inside the inhibition window.",
         some "0.5", none, []⟩,
        ⟨"exc", "excitation amplitude",
         "Weight increase for causal pairs inside the excitation window.",
         some "1.0", none, []⟩,
        ⟨"iwd", "inhibition window",
         "Width of the window in which acausal pairs depress.",
         some "20", some "ms", []⟩,
        ⟨"ewd", "excitation window",
         "Width of the window in which causal pairs potentiate.",
         some "20", some "ms", []⟩]
      slots := [] },
    { id := ⟨.ofSection .learning, "none"⟩
      name := "no learning"
      description := "Static weights."
      discriminator := some ⟨"fnc", "none"⟩
      fields := [
        ⟨"lid", "learning function id",
         "Identifier of the learning function.",
         none, none, []⟩,
        ⟨"fnc", "learning function",
         "No learning. Weights keep their initial value.",
         some "none", none, ["none"]⟩]
      slots := [] }]

/-- Weight decay. -/
def weightDecay : FamilySpec where
  code := .weightDecay
  name := "weight decay function"
  description :=
    "How the weights of a neuron's incoming synapses decay towards zero over time."
  kinds := [
    { id := ⟨.ofFamily .weightDecay, "zer"⟩
      name := "zero decay"
      description := "Weights do not decay."
      discriminator := some ⟨"fnc", "zer"⟩
      fields := [
        ⟨"fnc", "decay function",
         "Zero decay. Weights keep their value between updates.",
         some "zer", none, ["zer"]⟩]
      slots := [] },
    { id := ⟨.ofFamily .weightDecay, "exp"⟩
      name := "exponential decay"
      description := "Weights decay exponentially."
      discriminator := some ⟨"fnc", "exp"⟩
      fields := [
        ⟨"fnc", "decay function",
         "Exponential decay. Weights halve every half-life.",
         some "exp", none, ["exp"]⟩,
        ⟨"hlf", "half-life",
         "Time after which an unreinforced weight has decayed to half its value.",
         some "10", some "ms", []⟩]
      slots := [] },
    { id := ⟨.ofFamily .weightDecay, "lin"⟩
      name := "linear decay"
      description := "Weights decay by a constant amount per unit of time."
      discriminator := some ⟨"fnc", "lin"⟩
      fields := [
        ⟨"fnc", "decay function",
         "Linear decay. Weights shrink by a fixed rate until they reach zero.",
         some "lin", none, ["lin"]⟩,
        ⟨"rte", "decay rate",
         "Weight lost per millisecond.",
         some "0.01", some "1/ms", []⟩]
      slots := [] }]

/-- Release probability. -/
def releaseProbability : FamilySpec where
  code := .releaseProbability
  name := "signal release probability"
  description :=
    "Probability that a spike is actually transmitted to the neuron's targets."
  kinds := [
    { id := ⟨.ofFamily .releaseProbability, "fix"⟩
      name := "fixed probability"
      description := "Every spike is released with the same probability."
      discriminator := some ⟨"fnc", "fix"⟩
      fields := [
        ⟨"fnc", "release function",
         "Fixed release. Each spike is released with probability `prb`.",
         some "fix", none, ["fix"]⟩,
        ⟨"prb", "release probability",
         "Probability in [0, 1] that a spike is released.",
         some "1.0", none, []⟩]
      slots := [] },
    { id := ⟨.ofFamily .releaseProbability, "stc"⟩
      name := "stochastic probability"
      description := "The release probability is drawn per spike from a normal distribution."
      discriminator := some ⟨"fnc", "stc"⟩
      fields := [
        ⟨"fnc", "release function",
         "Stochastic release. The probability is sampled for every spike.",
         some "stc", none, ["stc"]⟩,
        ⟨"prb", "mean release probability",
         "Mean of the distribution the release probability is drawn from.",
         some "0.5", none, []⟩,
        ⟨"dev", "standard deviation",
         "Standard deviation of the release probability distribution.",
         some "0.1", none, []⟩]
      slots := [] }]

/-- Weight limits. -/
def weightLimit : FamilySpec where
  code := .weightLimit
  name := "weight limit function"
  description :=
    "Bounds applied to the weights of a neuron's incoming synapses after learning."
  kinds := [
    { id := ⟨.ofFamily .weightLimit, "bnd"⟩
      name := "bounded weights"
      description := "Weights are clamped to a closed interval."
      discriminator := some ⟨"fnc", "bnd"⟩
      fields := [
        ⟨"fnc", "limit function",
         "Bounded. Weights are clamped to [lwr, upr].",
         some "bnd", none, ["bnd"]⟩,
        ⟨"lwr", "lower bound",
         "Smallest weight a synapse may reach.",
         some "0.0", none, []⟩,
        ⟨"upr", "upper bound",
         "Largest weight a synapse may reach.",
         some "1.0", none, []⟩]
      slots := [] },
    { id := ⟨.ofFamily .weightLimit, "unb"⟩
      name := "unbounded weights"
      description := "Weights are never clamped."
      discriminator := some ⟨"fnc", "unb"⟩
      fields := [
        ⟨"fnc", "limit function",
         "Unbounded. Learning may drive weights to any value.",
         some "unb", none, ["unb"]⟩]
      slots := [] }]

/-- Locations. -/
def location : FamilySpec where
  code := .location
  name := "location"
  description :=
    "Position of the neuron in space, used for distance-dependent delays and visualisation."
  kinds := [
    { id := ⟨.ofFamily .location, "ct"⟩
      name := "cartesian location"
      description := "Position given as x, y and z coordinates."
      discriminator := some ⟨"cst", "ct"⟩
      fields := [
        ⟨"cst", "coordinate system",
         "Coordinate system: cartesian (x, y, z).",
         some "ct", none, ["ct"]⟩,
        ⟨"xco", "x coordinate",
         "Distance along the x axis.",
         some "0", some "um", []⟩,
        ⟨"yco", "y coordinate",
         "Distance along the y axis.",
         some "0", some "um", []⟩,
        ⟨"zco", "z coordinate",
         "Distance along the z axis.",
         some "0", some "um", []⟩]
      slots := [] },
    { id := ⟨.ofFamily .location, "cl"⟩
      name := "cylindrical location"
      description := "Position given as radius, angle and height."
      discriminator := some ⟨"cst", "cl"⟩
      fields := [
        ⟨"cst", "coordinate system",
         "Coordinate system: cylindrical (radius, angle, height).",
         some "cl", none, ["cl"]⟩,
        ⟨"rad", "radius",
         "Distance from the cylinder axis.",
         some "0", some "um", []⟩,
        ⟨"ang", "angle",
         "Angle around the cylinder axis.",
         some "0", some "deg", []⟩,
        ⟨"hgt", "height",
         "Distance along the cylinder axis.",
         some "0", some "um", []⟩]
      slots := [] },
    { id := ⟨.ofFamily .location, "sp"⟩
      name := "spherical location"
      description := "Position given as radius, azimuth and polar angle."
      discriminator := some ⟨"cst", "sp"⟩
      fields := [
        ⟨"cst", "coordinate system",
         "Coordinate system: spherical (radius, azimuth, polar angle).",
         some "sp", none, ["sp"]⟩,
        ⟨"rad", "radius",
         "Distance from the origin.",
         some "0", some "um", []⟩,
        ⟨"azm", "azimuth",
         "Angle in the x-y plane from the x axis.",
         some "0", some "deg", []⟩,
        ⟨"pol", "polar angle",
         "Angle from the z axis.",
         some "0", some "deg", []⟩]
      slots := [] }]

end Standard

/-- The built-in grammar. -/
def Grammar.standard : Grammar where
  sections := [Standard.groups, Standard.neurons, Standard.connections, Standard.learning]
  families := [Standard.weightDecay, Standard.releaseProbability, Standard.weightLimit,
    Standard.location]

end TopologyAssist
